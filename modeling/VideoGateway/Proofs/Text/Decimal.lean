import Mathlib.Data.List.DropRight
import Mathlib.Data.List.TakeWhile
import VideoGateway.Proofs.Json.Numeral
import VideoGateway.Text.Ascii
import VideoGateway.Text.Blank

/-!
# Decimal integers between blanks

What is cut off at the ends of a text are its blanks there, all of them and nothing else. A
decimal integer has no blanks, so it is found again between those that a text pads it with,
and it is the same in small letters.
-/
namespace VideoGateway.Text

section Trimming

variable {p : Char → Bool} {front back cs : List Char}

theorem dropWhile_append_eq (hfront : ∀ c ∈ front, p c = true)
    (hhead : ∀ c ∈ cs.head?, p c = false) : (front ++ cs).dropWhile p = cs := by
  rw [List.dropWhile_append_of_pos hfront]
  cases cs with
  | nil => rfl
  | cons c cs => exact List.dropWhile_cons_of_neg (by simpa using hhead c rfl)

theorem dropBoth_append (hfront : ∀ c ∈ front, p c = true) (hback : ∀ c ∈ back, p c = true)
    (hcs : cs ≠ []) (hfirst : ∀ c ∈ cs.head?, p c = false)
    (hlast : ∀ c ∈ cs.getLast?, p c = false) : dropBoth p (front ++ cs ++ back) = cs := by
  have hstart : (front ++ (cs ++ back)).dropWhile p = cs ++ back := by
    apply dropWhile_append_eq hfront
    obtain ⟨c, cs, rfl⟩ := List.exists_cons_of_ne_nil hcs
    exact hfirst
  have hend : (back.reverse ++ cs.reverse).dropWhile p = cs.reverse := by
    apply dropWhile_append_eq
    · simpa using hback
    · rwa [List.head?_reverse]
  rw [dropBoth, dropRight, List.append_assoc, hstart, List.reverse_append, hend,
    List.reverse_reverse]

theorem exists_dropBoth (p : Char → Bool) (cs : List Char) : ∃ front back : List Char,
    (∀ c ∈ front, p c = true) ∧ (∀ c ∈ back, p c = true) ∧ cs = front ++ dropBoth p cs ++ back := by
  refine ⟨cs.takeWhile p, (cs.dropWhile p).rtakeWhile p, fun c hc => List.mem_takeWhile_imp hc,
    fun c hc => List.mem_rtakeWhile_imp hc, ?_⟩
  have hback : dropBoth p cs ++ (cs.dropWhile p).rtakeWhile p = cs.dropWhile p :=
    List.rdropWhile_append_rtakeWhile
  rw [List.append_assoc, hback, List.takeWhile_append_dropWhile]

end Trimming

/-- A decimal integer; it may have a plus sign. -/
def Decimal (cs : List Char) (n : Nat) : Prop :=
  ∃ digits, (cs = digits ∨ cs = '+' :: digits) ∧ isDigits digits = true ∧
    Nat.ofDigitChars 10 digits 0 = n

section Decimals

variable {cs digits : List Char} {c : Char} {n bound : Nat}

theorem isDigits_iff : isDigits cs = true ↔ cs ≠ [] ∧ ∀ c ∈ cs, c.isDigit = true := by
  simp [isDigits]

theorem decimal_of_isDigits (h : isDigits cs = true) : Decimal cs (Nat.ofDigitChars 10 cs 0) :=
  ⟨cs, .inl rfl, h, rfl⟩

theorem afterStart?_plus_of_isDigits (h : isDigits cs = true) : afterStart? ['+'] cs = none := by
  obtain ⟨-, hdigits⟩ := isDigits_iff.mp h
  rw [Option.eq_none_iff_forall_ne_some]
  intro rest hrest
  rw [afterStart?_eq_some_iff.mp hrest] at hdigits
  exact absurd (hdigits '+' List.mem_cons_self) (by decide)

/-- A number is read from the decimal integers up to the bound, and from nothing else. -/
theorem readDigits?_eq_some_iff : readDigits? bound cs = some n ↔ Decimal cs n ∧ n ≤ bound := by
  constructor
  · intro h
    unfold readDigits? at h
    dsimp only at h
    split at h
    · next hread =>
      rw [Bool.and_eq_true, decide_eq_true_eq] at hread
      obtain rfl := Option.some.inj h
      refine ⟨⟨_, ?_, hread.1, rfl⟩, hread.2⟩
      cases hsign : afterStart? ['+'] cs with
      | none => exact .inl rfl
      | some rest => exact .inr (afterStart?_eq_some_iff.mp hsign)
    · cases h
  · rintro ⟨⟨digits, hcs, hdigits, rfl⟩, hn⟩
    have hunsigned : (afterStart? ['+'] cs).getD cs = digits := by
      rcases hcs with rfl | rfl
      · rw [afterStart?_plus_of_isDigits hdigits, Option.getD_none]
      · rfl
    simp [readDigits?, hunsigned, hdigits, hn]

theorem Decimal.ne_nil (h : Decimal cs n) : cs ≠ [] := by
  obtain ⟨digits, rfl | rfl, hdigits, -⟩ := h
  · exact (isDigits_iff.mp hdigits).1
  · exact List.cons_ne_nil _ _

theorem Decimal.range_of_mem (h : Decimal cs n) (hc : c ∈ cs) : 43 ≤ c.toNat ∧ c.toNat ≤ 57 := by
  have hdigit : ∀ {digits : List Char}, isDigits digits = true → c ∈ digits →
      43 ≤ c.toNat ∧ c.toNat ≤ 57 := by
    intro digits hdigits hc
    have := Json.toNat_of_isDigit ((isDigits_iff.mp hdigits).2 c hc)
    omega
  obtain ⟨digits, rfl | rfl, hdigits, -⟩ := h
  · exact hdigit hdigits hc
  · rcases List.mem_cons.mp hc with rfl | hc
    · decide
    · exact hdigit hdigits hc

end Decimals

section Characters

variable {c : Char}

theorem not_range_of_isBlank (h : isBlank c = true) : c.toNat < 43 ∨ 122 < c.toNat := by
  simp only [isBlank, Bool.or_eq_true, Bool.and_eq_true, decide_eq_true_eq, beq_iff_eq] at h
  omega

theorem isBlank_of_range (h : 43 ≤ c.toNat ∧ c.toNat ≤ 122) : isBlank c = false := by
  rw [Bool.eq_false_iff]
  intro hblank
  have := not_range_of_isBlank hblank
  omega

theorem lowerChar_of_not_capital (h : c.toNat < 65 ∨ 90 < c.toNat) : lowerChar c = c := by
  have hnot : ¬(0x41 ≤ c.toNat ∧ c.toNat ≤ 0x5A) := by omega
  simp [lowerChar, hnot]

theorem isBlank_lowerChar (c : Char) : isBlank (lowerChar c) = isBlank c := by
  by_cases hcapital : 65 ≤ c.toNat ∧ c.toNat ≤ 90
  · have hsmall : (lowerChar c).toNat = c.toNat + 32 := by
      have hvalid : (c.toNat + 32).isValidChar := .inl (by omega)
      rw [lowerChar, if_pos (by simpa using hcapital), Char.ofNat, dif_pos hvalid]
      rfl
    rw [isBlank_of_range (by omega), isBlank_of_range (by omega)]
  · rw [lowerChar_of_not_capital (by omega)]

theorem map_lowerChar_eq {cs : List Char}
    (h : ∀ c ∈ cs, isBlank c = true ∨ 43 ≤ c.toNat ∧ c.toNat ≤ 57) :
    cs.map lowerChar = cs := by
  conv_rhs => rw [← List.map_id cs]
  refine List.map_congr_left fun c hc => lowerChar_of_not_capital ?_
  rcases h c hc with hblank | hrange
  · have := not_range_of_isBlank hblank
    omega
  · omega

end Characters

theorem Decimal.isBlank_of_mem {cs : List Char} {n : Nat} (h : Decimal cs n) :
    ∀ c ∈ cs, isBlank c = false := by
  intro c hc
  have := h.range_of_mem hc
  exact isBlank_of_range (by omega)

theorem Decimal.dropBoth_eq {front cs back : List Char} {n : Nat} (h : Decimal cs n)
    (hfront : ∀ c ∈ front, isBlank c = true) (hback : ∀ c ∈ back, isBlank c = true) :
    dropBoth isBlank (front ++ cs ++ back) = cs :=
  dropBoth_append hfront hback h.ne_nil (fun c hc => h.isBlank_of_mem c (List.mem_of_head? hc))
    fun c hc => h.isBlank_of_mem c (List.mem_of_getLast? hc)

end VideoGateway.Text

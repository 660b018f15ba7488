import Mathlib.Tactic.IntervalCases
import VideoGateway.Json.Token
import VideoGateway.Json.Writer
import VideoGateway.Proofs.Text.Utf8

/-!
# The texts of numbers are numbers

Every number is written as digits, a fraction and an exponent, with a sign in
front. A text of this form is read as one number up to its end, whatever comes
next, as long as this does not go on like a number. Integers of 64 bits come back
as they are.
-/
namespace VideoGateway.Json

open Text.Utf8 (encodeChar_of_ascii)

def octets (cs : List Char) : Bytes :=
  cs.flatMap String.utf8EncodeChar

@[simp] theorem octets_nil : octets [] = [] := rfl

@[simp] theorem octets_cons (c : Char) (cs : List Char) :
    octets (c :: cs) = String.utf8EncodeChar c ++ octets cs := rfl

@[simp] theorem octets_append (cs ds : List Char) : octets (cs ++ ds) = octets cs ++ octets ds :=
  List.flatMap_append

theorem encode_eq_octets (s : String) : Text.Utf8.encode s = octets s.toList := rfl

section Digits

/-- One or more digits. -/
structure Digits (cs : List Char) : Prop where
  ne_nil : cs ≠ []
  isDigit : ∀ c ∈ cs, c.isDigit = true

variable {c : Char} {cs ds : List Char} {rest : Bytes}

theorem toNat_of_isDigit (h : c.isDigit = true) : 48 ≤ c.toNat ∧ c.toNat ≤ 57 := by
  simp only [Char.isDigit, Bool.and_eq_true, decide_eq_true_eq] at h
  exact h

theorem encodeChar_of_isDigit (h : c.isDigit = true) :
    String.utf8EncodeChar c = [UInt8.ofNat c.toNat] ∧
      Token.isDigit (UInt8.ofNat c.toNat) = true := by
  obtain ⟨hlow, hhigh⟩ := toNat_of_isDigit h
  refine ⟨encodeChar_of_ascii (by omega), ?_⟩
  have htoNat : (UInt8.ofNat c.toNat).toNat = c.toNat := by
    rw [UInt8.toNat_ofNat', Nat.mod_eq_of_lt (by omega)]
  simp only [Token.isDigit, UInt8.le_iff_toNat_le, htoNat, UInt8.reduceToNat, Bool.and_eq_true,
    decide_eq_true_eq]
  exact ⟨hlow, hhigh⟩

def NoDigit (rest : Bytes) : Prop :=
  ∀ b ∈ rest.head?, Token.isDigit b = false

theorem takeWhile_octets (h : ∀ c ∈ cs, c.isDigit = true) (hrest : NoDigit rest) :
    Token.takeWhile Token.isDigit (octets cs ++ rest) = (octets cs, rest) := by
  have hdigits : ∀ b ∈ octets cs, Token.isDigit b = true := by
    intro b hb
    obtain ⟨c, hc, hb⟩ := List.mem_flatMap.mp hb
    obtain ⟨hoctet, hdigit⟩ := encodeChar_of_isDigit (h c hc)
    rw [hoctet, List.mem_singleton] at hb
    rw [hb]
    exact hdigit
  have hstop : rest.takeWhile Token.isDigit = [] ∧ rest.dropWhile Token.isDigit = rest := by
    cases rest with
    | nil => exact ⟨rfl, rfl⟩
    | cons b rest => simp [hrest b rfl]
  rw [Token.takeWhile, List.takeWhile_append_of_pos hdigits, List.dropWhile_append_of_pos hdigits,
    hstop.1, hstop.2, List.append_nil]

theorem Digits.octets_ne_nil (h : Digits cs) : octets cs ≠ [] := by
  obtain ⟨c, cs, rfl⟩ := List.exists_cons_of_ne_nil h.ne_nil
  rw [octets_cons, (encodeChar_of_isDigit (h.isDigit c List.mem_cons_self)).1]
  exact List.cons_ne_nil _ _

theorem digitChars_octets (h : ∀ c ∈ cs, c.isDigit = true) :
    Token.digitChars (octets cs) = cs := by
  induction cs with
  | nil => rfl
  | cons c cs ih =>
    rw [List.forall_mem_cons] at h
    obtain ⟨hlow, hhigh⟩ := toNat_of_isDigit h.1
    have htoNat : (UInt8.ofNat c.toNat).toNat = c.toNat := by
      rw [UInt8.toNat_ofNat', Nat.mod_eq_of_lt (by omega)]
    have ih := ih h.2
    rw [Token.digitChars] at ih ⊢
    rw [octets_cons, (encodeChar_of_isDigit h.1).1, List.singleton_append, List.map_cons, ih, htoNat,
      Char.ofNat_toNat]

end Digits

/-- A number of digits, of which the first one is zero only if it is the only one. -/
structure Whole (cs : List Char) : Prop extends Digits cs where
  head : cs.head? = some '0' → cs = ['0']

theorem Whole.zero : Whole ['0'] :=
  ⟨⟨List.cons_ne_nil _ _, by simp⟩, fun _ => rfl⟩

/-- A point and digits, or nothing. -/
inductive Fraction : List Char → Prop
  | absent : Fraction []
  | given {ds : List Char} : Digits ds → Fraction ('.' :: ds)

/-- An exponent with or without a sign, or nothing. -/
inductive Exponent : List Char → Prop
  | absent : Exponent []
  | given {sign ds : List Char} : sign ∈ [[], ['+'], ['-']] → Digits ds →
      Exponent ('e' :: (sign ++ ds))

/-- A number in decimal notation, without its sign. -/
inductive Numeral : List Char → Prop
  | mk {whole fraction exponent : List Char} : Whole whole → Fraction fraction →
      Exponent exponent → Numeral (whole ++ (fraction ++ exponent))

/-- What comes next does not go on like a number. -/
structure Ends (rest : Bytes) : Prop where
  noDigit : NoDigit rest
  noPoint : rest.head? ≠ some 0x2E
  noExponent : rest.head? ≠ some 0x65 ∧ rest.head? ≠ some 0x45

theorem Ends.nil : Ends [] := ⟨nofun, nofun, nofun, nofun⟩

section Reading

variable {cs : List Char} {rest : Bytes}

theorem exponent?_of_not (h : rest.head? ≠ some 0x65 ∧ rest.head? ≠ some 0x45) :
    Token.exponent? rest = some (none, rest) := by
  cases rest with
  | nil => rfl
  | cons b rest =>
    have hb : (b == 0x65 || b == 0x45) = false := by
      simpa using h
    simp only [Token.exponent?, hb, Bool.false_eq_true, ↓reduceIte]

theorem fraction?_of_not (h : rest.head? ≠ some 0x2E) :
    Token.fraction? rest = some ([], rest) := by
  unfold Token.fraction?
  split
  · exact absurd rfl h
  · rfl

theorem sign_octets (h : Digits cs) (rest : Bytes) :
    Token.sign (octets cs ++ rest) = (false, octets cs ++ rest) := by
  obtain ⟨c, cs, rfl⟩ := List.exists_cons_of_ne_nil h.ne_nil
  obtain ⟨hoctet, hdigit⟩ := encodeChar_of_isDigit (h.isDigit c List.mem_cons_self)
  rw [octets_cons, hoctet, List.singleton_append, List.cons_append]
  generalize UInt8.ofNat c.toNat = b at hdigit
  unfold Token.sign
  split
  · next heq => rw [(List.cons.inj heq).1] at hdigit; cases hdigit
  · next heq => rw [(List.cons.inj heq).1] at hdigit; cases hdigit
  · rfl

theorem Exponent.read (h : Exponent cs) :
    ∃ value, ∀ rest, Ends rest → Token.exponent? (octets cs ++ rest) = some (value, rest) := by
  cases h with
  | absent => exact ⟨none, fun rest hrest => exponent?_of_not hrest.noExponent⟩
  | @given sign ds hsign hds =>
    have hread (negative : Bool) (hsigned : ∀ rest, Token.sign (octets sign ++ (octets ds ++ rest)) =
        (negative, octets ds ++ rest)) : ∃ value, ∀ rest, Ends rest →
        Token.exponent? (octets ('e' :: (sign ++ ds)) ++ rest) = some (value, rest) := by
      let n : Int := Nat.ofDigitChars 10 (Token.digitChars (octets ds)) 0
      refine ⟨some (if negative then -n else n), fun rest hrest => ?_⟩
      have htext : octets ('e' :: (sign ++ ds)) ++ rest =
          0x65 :: (octets sign ++ (octets ds ++ rest)) := by
        rw [octets_cons, octets_append, List.append_assoc, List.append_assoc]
        rfl
      have hsome : (octets ds).isEmpty = false := by simpa using hds.octets_ne_nil
      rw [htext, Token.exponent?, hsigned]
      simp only [takeWhile_octets hds.isDigit hrest.noDigit, hsome]
      rfl
    simp only [List.mem_cons, List.not_mem_nil, or_false] at hsign
    rcases hsign with rfl | rfl | rfl
    · exact hread false fun rest => sign_octets hds _
    · exact hread false fun rest => rfl
    · exact hread true fun rest => rfl

theorem Fraction.read (h : Fraction cs) :
    ∃ digits, ∀ rest, NoDigit rest → rest.head? ≠ some 0x2E →
      Token.fraction? (octets cs ++ rest) = some (digits, rest) := by
  cases h with
  | absent => exact ⟨[], fun rest _ hrest => fraction?_of_not hrest⟩
  | @given ds hds =>
    refine ⟨octets ds, fun rest hrest _ => ?_⟩
    have htext : octets ('.' :: ds) ++ rest = 0x2E :: (octets ds ++ rest) := rfl
    have hsome : (octets ds).isEmpty = false := by simpa using hds.octets_ne_nil
    rw [htext, Token.fraction?]
    simp only [takeWhile_octets hds.isDigit hrest, hsome]
    rfl

theorem Exponent.octets_ends (h : Exponent cs) (hrest : Ends rest) :
    NoDigit (octets cs ++ rest) ∧ (octets cs ++ rest).head? ≠ some 0x2E := by
  cases h with
  | absent => exact ⟨hrest.noDigit, hrest.noPoint⟩
  | given =>
    refine ⟨fun b hb => ?_, fun hhead => ?_⟩
    · cases hb
      decide
    · cases hhead

theorem Fraction.octets_ends (h : Fraction cs) {rest : Bytes} (hrest : NoDigit rest) :
    NoDigit (octets cs ++ rest) := by
  cases h with
  | absent => exact hrest
  | given =>
    intro b hb
    cases hb
    decide

theorem Whole.octets_head (h : Whole cs) {first : UInt8} {more : Bytes}
    (hcs : octets cs = first :: more) : (first == 0x30 && !more.isEmpty) = false := by
  obtain ⟨c, ds, rfl⟩ := List.exists_cons_of_ne_nil h.ne_nil
  have hdigit : c.isDigit = true := h.isDigit c List.mem_cons_self
  rw [octets_cons, (encodeChar_of_isDigit hdigit).1, List.singleton_append] at hcs
  obtain ⟨rfl, rfl⟩ := List.cons.inj hcs
  by_cases hzero : c = '0'
  · subst hzero
    obtain ⟨-, rfl⟩ := List.cons.inj (h.head rfl)
    rfl
  · have hne : UInt8.ofNat c.toNat ≠ 0x30 := by
      intro heq
      obtain ⟨hlow, hhigh⟩ := toNat_of_isDigit hdigit
      have htoNat := congrArg UInt8.toNat heq
      rw [UInt8.toNat_ofNat', Nat.mod_eq_of_lt (by omega)] at htoNat
      exact hzero (Char.toNat_inj.mp htoNat)
    simp [hne]

theorem number?_of_parts (negative : Bool) (hcs : Whole cs) {tail tail' digits : Bytes}
    {power : Option Int} (hend : NoDigit tail) (hfraction : Token.fraction? tail = some (digits, tail'))
    (hexponent : Token.exponent? tail' = some (power, rest)) :
    Token.number? negative (octets cs ++ tail) =
      some (.number (Token.numberValue negative (octets cs) digits power), rest) := by
  obtain ⟨first, more, hfirst⟩ := List.exists_cons_of_ne_nil hcs.toDigits.octets_ne_nil
  have hzero := hcs.octets_head hfirst
  rw [Token.number?, takeWhile_octets hcs.isDigit hend, hfirst]
  simp only [hzero, hfraction, hexponent, Bool.false_eq_true, ↓reduceIte]

/-- A numeral is read as one number up to its end. -/
theorem Numeral.read (h : Numeral cs) (negative : Bool) :
    ∃ value, ∀ rest, Ends rest →
      Token.number? negative (octets cs ++ rest) = some (.number value, rest) := by
  obtain @⟨whole, fraction, exponent, hwhole, hfraction, hexponent⟩ := h
  obtain ⟨digits, hdigits⟩ := hfraction.read
  obtain ⟨power, hpower⟩ := hexponent.read
  refine ⟨Token.numberValue negative (octets whole) digits power, fun rest hrest => ?_⟩
  obtain ⟨hnoDigit, hnoPoint⟩ := hexponent.octets_ends hrest
  rw [octets_append, octets_append, List.append_assoc, List.append_assoc]
  exact number?_of_parts negative hwhole (hfraction.octets_ends hnoDigit)
    (hdigits _ hnoDigit hnoPoint) (hpower rest hrest)

end Reading

section Integers

variable {n : Nat}

theorem toDigits_digits (n : Nat) : Digits (Nat.toDigits 10 n) :=
  ⟨Nat.toDigits_ne_nil, fun _ hc => Nat.isDigit_of_mem_toDigits (by decide) (by decide) hc⟩

theorem head?_toDigits (h : 0 < n) : (Nat.toDigits 10 n).head? ≠ some '0' := by
  induction n using Nat.strongRecOn with
  | ind n ih =>
    rw [Nat.toDigits_eq_if (by decide)]
    split
    · next hlt => interval_cases n <;> decide
    · next hge =>
      have hfront := ih (n / 10) (by omega) (by omega)
      have hne : Nat.toDigits 10 (n / 10) ≠ [] := Nat.toDigits_ne_nil
      obtain ⟨c, cs, hcs⟩ := List.exists_cons_of_ne_nil hne
      rw [hcs] at hfront ⊢
      exact hfront

theorem toDigits_whole (n : Nat) : Whole (Nat.toDigits 10 n) := by
  refine ⟨toDigits_digits n, fun hhead => ?_⟩
  rcases Nat.eq_zero_or_pos n with rfl | hpos
  · rfl
  · exact absurd hhead (head?_toDigits hpos)

theorem toDigits_numeral (n : Nat) : Numeral (Nat.toDigits 10 n) := by
  have h := Numeral.mk (toDigits_whole n) .absent .absent
  rwa [List.append_nil, List.append_nil] at h

theorem toList_intText_ofNat (n : Nat) : (Text.intText (.ofNat n)).toList = Nat.toDigits 10 n := by
  simp only [Text.intText, Text.natText, String.toList_ofList]

theorem toList_intText_negSucc (n : Nat) :
    (Text.intText (.negSucc n)).toList = '-' :: Nat.toDigits 10 (n + 1) := by
  simp only [Text.intText, Text.natText, String.toList_append, String.toList_ofList]
  rfl

theorem le_ofDigitChars (cs : List Char) (m : Nat) : m ≤ Nat.ofDigitChars 10 cs m := by
  induction cs generalizing m with
  | nil => exact Nat.le_refl _
  | cons c cs ih =>
    rw [Nat.ofDigitChars_cons]
    exact Nat.le_trans (by omega) (ih _)

/-- Digits are taken to their end when they make no more than 64 bits. -/
theorem takeDigits_eq {cs : List Char} {m : Nat}
    (h : Nat.ofDigitChars 10 cs m ≤ Binary64.significandLimit) :
    Binary64.takeDigits m cs = (Nat.ofDigitChars 10 cs m, []) := by
  induction cs generalizing m with
  | nil => rfl
  | cons c cs ih =>
    rw [Nat.ofDigitChars_cons, Nat.mul_comm] at h ⊢
    have hle := Nat.le_trans (le_ofDigitChars cs _) h
    simp only [Binary64.takeDigits, if_pos hle]
    exact ih h

theorem numberValue_toDigits (negative : Bool) (h : n ≤ Word.greatest64)
    (hsign : negative = true → 0 < n ∧ Word.leastSigned64 ≤ -(n : Int)) :
    Token.numberValue negative (octets (Nat.toDigits 10 n)) [] none =
      some (.int (if negative then -(n : Int) else n)) := by
  have hvalue : Nat.ofDigitChars 10 (Nat.toDigits 10 n) 0 = n := Nat.ofDigitChars_ten_toDigits
  have htake : Binary64.takeDigits 0 (Nat.toDigits 10 n) = (n, []) := by
    rw [takeDigits_eq (by rw [hvalue]; exact h), hvalue]
  rw [Token.numberValue, digitChars_octets (toDigits_digits n).isDigit, htake]
  cases negative with
  | false => rfl
  | true =>
    obtain ⟨hpos, hleast⟩ := hsign rfl
    have hpos : 1 ≤ n := hpos
    simp [hpos, hleast]

end Integers

section Reals

open Binary64

variable {tie : Tie} {r count : Nat} {d : Decimal}

theorem rank_of_digits_eq_zero (h : d.digits = 0) : d.rank = 0 := by
  have hzero (den : Nat) : nearestRank 0 den = 0 := by simp [nearestRank]
  unfold Decimal.rank
  split
  · simp [h, hzero]
  · simp [h, hzero]

-- The definition as a whole: at arguments, the kernel would compare the two sides
-- by computing powers of ten.
theorem candidate?_eq : candidate? = fun tie r count =>
    let u := units r
    let e := leadingExponent u - (count - 1 : Nat)
    let num := if 0 ≤ e then u else u * tenTo (-e).toNat
    let den := if 0 ≤ e then unitsPerOne * tenTo e.toNat else unitsPerOne
    let q := num / den
    let rest := 2 * (num % den)
    let below : Decimal := ⟨q, e⟩
    let above : Decimal := ⟨q + 1, e⟩
    let preferAbove := rest > den || (rest == den && (tie == .up || q % 2 == 1))
    match decide (below.rank = r), decide (above.rank = r) with
    | true, true => some (if preferAbove then above else below)
    | true, false => some below
    | false, true => some above
    | false, false => none := rfl

theorem rank_of_choice {below above : Decimal} {preferAbove : Bool}
    (h : (match decide (below.rank = r), decide (above.rank = r) with
      | true, true => some (if preferAbove then above else below)
      | true, false => some below
      | false, true => some above
      | false, false => none) = some d) : d.rank = r := by
  generalize hbelow : decide (below.rank = r) = isBelow at h
  generalize habove : decide (above.rank = r) = isAbove at h
  cases isBelow with
  | true =>
    cases isAbove with
    | true =>
      cases preferAbove with
      | true => exact Option.some.inj h ▸ of_decide_eq_true habove
      | false => exact Option.some.inj h ▸ of_decide_eq_true hbelow
    | false => exact Option.some.inj h ▸ of_decide_eq_true hbelow
  | false =>
    cases isAbove with
    | true => exact Option.some.inj h ▸ of_decide_eq_true habove
    | false => cases h

/-- A candidate rounds to the magnitude that it is for. -/
theorem rank_of_candidate? (h : candidate? tie r count = some d) : d.rank = r := by
  rewrite [candidate?_eq] at h
  exact rank_of_choice h

theorem exactDecimal_digits_ne_zero (h : r ≠ 0) : (exactDecimal r).digits ≠ 0 := by
  have hunits : 0 < units r := by
    unfold units significand
    dsimp only
    rw [Nat.shiftLeft_eq]
    refine Nat.mul_pos ?_ (Nat.two_pow_pos _)
    have hbinade : r / binade * binade ≤ r := Nat.div_mul_le_self r binade
    have hpos : 0 < binade := by decide
    rcases Nat.eq_zero_or_pos (r / binade) with hfirst | hlater
    · simp only [hfirst, Nat.zero_sub, Nat.zero_mul]
      omega
    · have hsplit : (r / binade - 1) * binade + binade = r / binade * binade := by
        rw [← Nat.succ_mul, Nat.succ_eq_add_one, Nat.sub_add_cancel hlater]
      omega
  have hscale : 0 < tenTo unitBits / unitsPerOne := by decide +kernel
  exact Nat.ne_of_gt (Nat.mul_pos hunits hscale)

theorem normalize_digits_ne_zero (h : d.digits ≠ 0) : d.normalize.digits ≠ 0 := by
  have haux (fuel : Nat) (d : Decimal) (h : d.digits ≠ 0) :
      (Decimal.normalizeAux fuel d).digits ≠ 0 := by
    induction fuel generalizing d with
    | zero => exact h
    | succ fuel ih =>
      unfold Decimal.normalizeAux
      split
      · next hten =>
        refine ih _ ?_
        show d.digits / 10 ≠ 0
        omega
      · exact h
  exact haux _ d h

theorem shortest_digits_ne_zero (h : r ≠ 0) : (shortest tie r).digits ≠ 0 := by
  refine normalize_digits_ne_zero ?_
  cases hfound : (List.range 17).findSome? fun i => candidate? tie r (i + 1) with
  | none => exact exactDecimal_digits_ne_zero h
  | some d =>
    obtain ⟨i, -, hcandidate⟩ := List.exists_of_findSome?_eq_some hfound
    intro hzero
    exact h ((rank_of_candidate? hcandidate).symm.trans (rank_of_digits_eq_zero hzero))

variable {cs ds : List Char}

theorem Digits.append (hcs : Digits cs) (hds : ∀ c ∈ ds, c.isDigit = true) : Digits (cs ++ ds) := by
  refine ⟨by simp [hcs.ne_nil], fun c hc => ?_⟩
  rcases List.mem_append.mp hc with hc | hc
  · exact hcs.isDigit c hc
  · exact hds c hc

theorem isDigit_of_mem_zeros {n : Nat} {c : Char} (h : c ∈ List.replicate n '0') :
    c.isDigit = true := by
  rw [List.eq_of_mem_replicate h]
  rfl

/-- Digits that do not begin with zero, with a point among them, in front of them
or after them. -/
theorem positional_numeral (hcs : Digits cs) (hhead : cs.head? ≠ some '0') (point : Int) :
    Numeral (positional cs point ".0".toList) := by
  unfold positional
  split
  · have hfraction : Digits (List.replicate (-point).toNat '0' ++ cs) := by
      refine ⟨by simp [hcs.ne_nil], fun c hc => ?_⟩
      rcases List.mem_append.mp hc with hc | hc
      · exact isDigit_of_mem_zeros hc
      · exact hcs.isDigit c hc
    have h := Numeral.mk Whole.zero (.given hfraction) .absent
    rwa [List.append_nil] at h
  · split
    · have hwhole : Whole (cs ++ List.replicate (point.toNat - cs.length) '0') := by
        refine ⟨hcs.append fun _ => isDigit_of_mem_zeros, fun h => absurd h ?_⟩
        obtain ⟨c, cs, rfl⟩ := List.exists_cons_of_ne_nil hcs.ne_nil
        exact hhead
      have h := Numeral.mk hwhole (.given Whole.zero.toDigits) .absent
      rwa [List.append_nil] at h
    · next hpos hlong =>
      have htake : Whole (cs.take point.toNat) := by
        refine ⟨⟨?_, fun c hc => hcs.isDigit c (List.mem_of_mem_take hc)⟩, fun h => absurd h ?_⟩
        · rw [ne_eq, List.take_eq_nil_iff, not_or]
          exact ⟨by omega, hcs.ne_nil⟩
        · rw [List.head?_take, if_neg (by omega)]
          exact hhead
      have hdrop : Digits (cs.drop point.toNat) := by
        refine ⟨?_, fun c hc => hcs.isDigit c (List.mem_of_mem_drop hc)⟩
        rw [ne_eq, List.drop_eq_nil_iff]
        omega
      have h := Numeral.mk htake (.given hdrop) .absent
      rwa [List.append_nil] at h

theorem signed_exponent (e : Int) :
    Exponent ('e' :: ((if e < 0 then [] else ['+']) ++ (Text.intText e).toList)) := by
  cases e with
  | ofNat n =>
    have hpos : ¬ Int.ofNat n < 0 := Int.not_lt.mpr (Int.natCast_nonneg n)
    rw [if_neg hpos, toList_intText_ofNat]
    have hsign : ['+'] ∈ [[], ['+'], ['-']] := by simp
    have h := Exponent.given hsign (toDigits_digits n)
    exact h
  | negSucc n =>
    have hneg : Int.negSucc n < 0 := by omega
    rw [if_pos hneg, toList_intText_negSucc]
    have hsign : ['-'] ∈ [[], ['+'], ['-']] := by simp
    have h := Exponent.given hsign (toDigits_digits (n + 1))
    exact h

theorem Whole.of_head {c : Char} (hdigits : Digits (c :: cs)) (hhead : (c :: cs).head? ≠ some '0') :
    Whole [c] := by
  refine ⟨⟨List.cons_ne_nil _ _, fun x hx => ?_⟩, fun h => absurd h hhead⟩
  rw [List.mem_singleton.mp hx]
  exact hdigits.isDigit c List.mem_cons_self

/-- A magnitude is written as a numeral. -/
theorem jsonMagnitude_numeral (r : Nat) : Numeral (jsonMagnitude r) := by
  unfold jsonMagnitude
  by_cases hr : r = 0
  · rw [if_pos hr]
    exact Numeral.mk Whole.zero (.given Whole.zero.toDigits) .absent
  · rw [if_neg hr]
    have hne : (shortest .even r).digits ≠ 0 := shortest_digits_ne_zero hr
    generalize shortest .even r = d at hne ⊢
    have hdigits := toDigits_digits d.digits
    have hhead := head?_toDigits (Nat.pos_of_ne_zero hne)
    unfold Decimal.layout
    generalize Nat.toDigits 10 d.digits = cs at hdigits hhead ⊢
    dsimp only
    split
    · exact positional_numeral hdigits hhead _
    · generalize (cs.length : Int) + d.exponent - 1 = e
      rw [List.append_assoc, List.cons_append]
      have hexponent := signed_exponent e
      generalize 'e' :: _ = exponent at hexponent ⊢
      obtain ⟨c, rest, rfl⟩ := List.exists_cons_of_ne_nil hdigits.ne_nil
      have hwhole := Whole.of_head hdigits hhead
      cases rest with
      | nil => exact Numeral.mk hwhole .absent hexponent
      | cons x xs =>
        have hfraction : Digits (x :: xs) :=
          ⟨List.cons_ne_nil _ _, fun y hy => hdigits.isDigit y (List.mem_cons_of_mem _ hy)⟩
        exact Numeral.mk hwhole (.given hfraction) hexponent

end Reals

end VideoGateway.Json

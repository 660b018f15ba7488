import VideoGateway.Generation.Metadata
import VideoGateway.Json.Token
import VideoGateway.Proofs.Binary64.Rounding

/-!
# Integers of free-form metadata

A number of metadata is read as the integer that it is, when 64 bits with a sign hold it, and
not at all when it has a fraction or lies beyond them. Only at the upper bound this is missed:
what counts there is the binary64 value, which the first integer beyond the bound shares with
the 1024 after it, and this one value is taken for the greatest integer.
-/
namespace VideoGateway

namespace Json

/-- An integer has 64 bits, with or without a sign. -/
def Number.Held : Number → Prop
  | .int n => Word.leastSigned64 ≤ n ∧ n ≤ Word.greatest64
  | .real _ => True

theorem takeDigits_le (cs : List Char) {n : Nat} (h : n ≤ Word.greatest64) :
    (Binary64.takeDigits n cs).1 ≤ Word.greatest64 := by
  induction cs generalizing n with
  | nil => exact h
  | cons c cs ih =>
    rw [Binary64.takeDigits]
    split
    · next hfits => exact ih hfits
    · exact h

theorem numberValue_held {negative : Bool} {whole fraction : Bytes} {exponent : Option Int}
    {number : Number} (h : Token.numberValue negative whole fraction exponent = some number) :
    number.Held := by
  have hdigits := takeDigits_le (Token.digitChars whole) (Nat.zero_le Word.greatest64)
  unfold Token.numberValue at h
  dsimp only at h
  split at h
  · obtain rfl := Option.some.inj h
    rw [Number.Held, Word.leastSigned64]
    omega
  · split at h
    · next hnegative =>
      obtain rfl := Option.some.inj h
      rw [Bool.and_eq_true, decide_eq_true_eq] at hnegative
      exact ⟨hnegative.2, by omega⟩
    · obtain ⟨x, -, rfl⟩ := Option.map_eq_some_iff.mp h
      trivial

def Number.value? : Number → Option ℚ
  | .int n => some n
  | .real x => x.value?

def value? (v : Json) : Option ℚ :=
  v.number?.bind Number.value?

end Json

namespace Binary64

/-- An integer beyond the signed ones is read as the first of these or a greater one; as the
first one up to the middle between it and the next binary64 value, where the even one counts. -/
theorem toInt?_ofNat_beyond {n : Nat} (hlow : Word.greatestSigned64 < n)
    (hhigh : n ≤ Word.greatest64) : ∃ m : Nat, (ofNat n).toInt? = some (m : Int) ∧
      Word.greatestSigned64 < m ∧
      ((m : Int) = Word.greatestSigned64 + 1 ↔ (n : Int) ≤ Word.greatestSigned64 + 1025) := by
  rw [Word.greatestSigned64] at hlow ⊢
  rw [Word.greatest64] at hhigh
  have hbinade : binade <<< 11 = 0x8000000000000000 := by decide
  have hnext : (2 * binade) <<< 11 = 0x10000000000000000 := by decide
  have hread : (ofNat n).toInt? = some ((nearestSteps n (2 ^ 11) * 2 ^ 11 : Nat) : Int) := by
    apply toInt?_ofNat
    · omega
    · omega
    · decide
  have hstep : 2 ^ 11 = 2048 := by decide
  refine ⟨_, hread, ?_, ?_⟩
  · have := le_nearestSteps n (2 ^ 11)
    omega
  · rw [hstep, nearestSteps]
    simp only [Bool.or_eq_true, Bool.and_eq_true, decide_eq_true_eq, beq_iff_eq]
    split <;> omega

end Binary64

namespace Metadata

open Word

variable {x : Binary64} {n : Int}

theorem ofReal?_eq_some_iff : int?.ofReal? x = some n ↔
    (x.toInt? = some n ∧ leastSigned64 ≤ n ∧ n ≤ greatestSigned64) ∨
      (n = greatestSigned64 ∧ x.toInt? = some (greatestSigned64 + 1)) := by
  unfold int?.ofReal?
  cases x.toInt? with
  | none => simp
  | some m =>
    dsimp only
    rw [leastSigned64, greatestSigned64]
    by_cases hm : -0x8000000000000000 ≤ m ∧ m ≤ 0x7FFFFFFFFFFFFFFF + 1
    · rw [if_pos hm]
      simp only [Option.some.injEq]
      omega
    · rw [if_neg hm]
      simp only [Option.some.injEq, reduceCtorEq, false_iff]
      omega

/-- An integer of 64 bits with a sign is read as itself. Of those beyond, the first 1025 are
read, as the greatest integer. -/
theorem int?_int_eq_some_iff {m : Int} (hleast : leastSigned64 ≤ m) (hgreatest : m ≤ greatest64) :
    int? (.num (.int m)) = some n ↔ (m = n ∧ n ≤ greatestSigned64) ∨
      (n = greatestSigned64 ∧ greatestSigned64 < m ∧ m ≤ greatestSigned64 + 1025) := by
  unfold int?
  dsimp only
  by_cases hm : m ≤ greatestSigned64
  · rw [if_pos ⟨hleast, hm⟩, Option.some.injEq]
    omega
  · rw [if_neg (fun h => hm h.2)]
    obtain ⟨k, rfl⟩ : ∃ k : Nat, m = k := by
      rw [greatestSigned64] at hm
      exact ⟨m.toNat, by omega⟩
    obtain ⟨r, hread, hbeyond, hfirst⟩ :=
      Binary64.toInt?_ofNat_beyond (Int.not_le.mp hm) (Int.ofNat_le.mp hgreatest)
    have hvalue : (Binary64.ofInt k).toInt? = some (r : Int) := hread
    rw [ofReal?_eq_some_iff, hvalue, Option.some.injEq, Option.some.injEq]
    omega

/-- Exactly the numbers whose value is an integer of 64 bits with a sign are read, as this
integer, and besides them those whose binary64 value is the first one beyond: they are read as
the greatest integer. Nothing else is. -/
theorem int?_eq_some_iff (v : Json) (hheld : ∀ number ∈ v.number?, number.Held) (n : Int) :
    int? v = some n ↔
      (v.value? = some (n : ℚ) ∧ leastSigned64 ≤ n ∧ n ≤ greatestSigned64) ∨
      (n = greatestSigned64 ∧ (v.value? = some ((greatestSigned64 + 1 : Int) : ℚ) ∨
        ∃ m : Int, v = .num (.int m) ∧
          greatestSigned64 + 1 < m ∧ m ≤ greatestSigned64 + 1025)) := by
  cases v with
  | num number =>
    cases number with
    | int m =>
      obtain ⟨hleast, hgreatest⟩ := hheld (.int m) rfl
      have hvalue (k : Int) : Json.value? (.num (.int m)) = some (k : ℚ) ↔ m = k := by
        show some (m : ℚ) = some (k : ℚ) ↔ m = k
        rw [Option.some.injEq, Int.cast_inj]
      have hself : (∃ k : Int, Json.num (.int m) = .num (.int k) ∧
          greatestSigned64 + 1 < k ∧ k ≤ greatestSigned64 + 1025) ↔
          greatestSigned64 + 1 < m ∧ m ≤ greatestSigned64 + 1025 := by
        simp
      rw [int?_int_eq_some_iff hleast hgreatest, hvalue, hvalue, hself]
      omega
    | real x =>
      have hvalue (k : Int) : Json.value? (.num (.real x)) = some (k : ℚ) ↔ x.toInt? = some k :=
        Binary64.toInt?_eq_some_iff.symm
      have hnot : ¬∃ k : Int, Json.num (.real x) = .num (.int k) ∧
          greatestSigned64 + 1 < k ∧ k ≤ greatestSigned64 + 1025 := by
        simp
      show int?.ofReal? x = some n ↔ _
      rw [ofReal?_eq_some_iff, hvalue, hvalue, or_iff_left hnot]
  | _ => simp [int?, Json.value?, Json.number?]

/-- The first integer beyond the signed ones whose binary64 value is another one than theirs. -/
theorem beyondMiddle_unread : (Json.Number.int 0x8000000000000401).Held ∧
    ∀ n, int? (.num (.int 0x8000000000000401)) ≠ some n := by
  have hheld : (Json.Number.int 0x8000000000000401).Held := by
    constructor <;> decide
  refine ⟨hheld, fun n hn => ?_⟩
  have hread := (int?_eq_some_iff (.num (.int 0x8000000000000401))
    (fun number hnumber => Option.some.inj hnumber ▸ hheld) n).mp hn
  rcases hread with ⟨hvalue, -, hle⟩ | ⟨-, hvalue | ⟨m, hm, -, hle⟩⟩
  · have hself : (0x8000000000000401 : Int) = n := by exact_mod_cast Option.some.inj hvalue
    rw [← hself] at hle
    exact absurd hle (by decide)
  · have hself : (0x8000000000000401 : Int) = greatestSigned64 + 1 := by
      exact_mod_cast Option.some.inj hvalue
    exact absurd hself (by decide)
  · cases hm
    exact absurd hle (by decide)

/-- The first integer beyond the signed ones is read, as another integer than it is. -/
theorem firstBeyond_misread : (Json.Number.int 0x8000000000000000).Held ∧
    Json.value? (.num (.int 0x8000000000000000)) = some ((0x8000000000000000 : Int) : ℚ) ∧
    int? (.num (.int 0x8000000000000000)) = some 0x7FFFFFFFFFFFFFFF := by
  refine ⟨⟨?_, ?_⟩, rfl, ?_⟩
  · decide
  · decide
  · decide +kernel

end Metadata

end VideoGateway

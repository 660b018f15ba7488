import Mathlib.Algebra.Order.Field.Basic
import Mathlib.Tactic.Ring
import VideoGateway.Binary64.Basic

/-!
# Integers as binary64 values

A finite value is a fraction of whole units, and it is read as an integer exactly when it is
one. An integer of more than 53 binary digits is rounded to a multiple of the power of two
that its last digits make up, to the even one on a tie.
-/
namespace VideoGateway

namespace Binary64

theorem unitsPerOne_eq : unitsPerOne = 2 ^ unitBits :=
  Nat.one_shiftLeft unitBits

theorem unitsPerOne_pos : 0 < unitsPerOne := by
  rw [unitsPerOne_eq]
  exact Nat.two_pow_pos unitBits

section Value

/-- The value itself, where it is finite. -/
def value? : Binary64 → Option ℚ
  | .finite negative rank =>
    let magnitude : ℚ := units rank / unitsPerOne
    some (if negative then -magnitude else magnitude)
  | _ => none

theorem units_div_eq_iff (u : Nat) (n : Int) : (u : ℚ) / unitsPerOne = n ↔
    u % unitsPerOne = 0 ∧ ((u / unitsPerOne : Nat) : Int) = n := by
  have hpos : (unitsPerOne : ℚ) ≠ 0 := Nat.cast_ne_zero.mpr unitsPerOne_pos.ne'
  rw [div_eq_iff hpos]
  constructor
  · intro h
    have hu : (u : Int) = n * unitsPerOne := by exact_mod_cast h
    have hdvd : (unitsPerOne : Int) ∣ u := ⟨n, by rw [hu, mul_comm]⟩
    refine ⟨Nat.mod_eq_zero_of_dvd (Int.natCast_dvd_natCast.mp hdvd), ?_⟩
    rw [Int.natCast_div, hu]
    exact Int.mul_ediv_cancel n (Int.natCast_ne_zero.mpr unitsPerOne_pos.ne')
  · rintro ⟨hmod, rfl⟩
    have hu : u / unitsPerOne * unitsPerOne = u :=
      Nat.div_mul_cancel (Nat.dvd_of_mod_eq_zero hmod)
    exact_mod_cast hu.symm

theorem toInt?_eq_some_iff {x : Binary64} {n : Int} :
    x.toInt? = some n ↔ x.value? = some (n : ℚ) := by
  cases x with
  | infinite => simp [toInt?, value?]
  | nan => simp [toInt?, value?]
  | finite negative rank =>
    have hread : (finite negative rank).toInt? = some n ↔ units rank % unitsPerOne = 0 ∧
        ((units rank / unitsPerOne : Nat) : Int) = if negative then -n else n := by
      by_cases hmod : units rank % unitsPerOne = 0
      · cases negative <;> simp [toInt?, hmod, neg_eq_iff_eq_neg]
      · simp [toInt?, hmod]
    have hself : (finite negative rank).value? = some (n : ℚ) ↔
        (units rank : ℚ) / unitsPerOne = ((if negative then -n else n : Int) : ℚ) := by
      cases negative <;> simp [value?, neg_eq_iff_eq_neg]
    rw [hread, hself, units_div_eq_iff]

theorem toInt?_of_units {negative : Bool} {rank : Fin magnitudes} {m : Nat}
    (h : units rank = m * unitsPerOne) :
    (finite negative rank).toInt? = some (if negative then -(m : Int) else m) := by
  have hmod : units rank % unitsPerOne = 0 := by
    rw [h, Nat.mul_mod_left]
  have hdiv : units rank / unitsPerOne = m := by
    rw [h, Nat.mul_div_cancel _ unitsPerOne_pos]
  simp only [toInt?, if_pos hmod, hdiv]

end Value

section Nearest

/-- The number of steps nearest to a number, the even one on a tie. -/
def nearestSteps (n step : Nat) : Nat :=
  n / step + if 2 * (n % step) > step || (2 * (n % step) == step && n / step % 2 == 1) then 1 else 0

theorem nearestRank_eq (num den : Nat) : nearestRank num den =
    ((num / den).log2 - 52) * binade + nearestSteps num (den <<< ((num / den).log2 - 52)) :=
  Nat.add_assoc _ _ _

theorem nearestSteps_mul (n step : Nat) {k : Nat} (hk : 0 < k) :
    nearestSteps (n * k) (step * k) = nearestSteps n step := by
  have hrest : 2 * (n * k % (step * k)) = 2 * (n % step) * k := by
    rw [Nat.mul_mod_mul_right, Nat.mul_assoc]
  have hlt : 2 * (n % step) * k > step * k ↔ 2 * (n % step) > step := Nat.mul_lt_mul_right hk
  have htie : 2 * (n % step) * k = step * k ↔ 2 * (n % step) = step :=
    Nat.mul_left_inj hk.ne'
  simp only [nearestSteps, hrest, Nat.mul_div_mul_right _ _ hk, hlt, beq_eq_decide, htie]

theorem le_nearestSteps (n step : Nat) : n / step ≤ nearestSteps n step :=
  Nat.le_add_right _ _

theorem nearestSteps_le (n step : Nat) : nearestSteps n step ≤ n / step + 1 := by
  unfold nearestSteps
  split <;> omega

/-- The magnitude of a rank, by the binade and the significand; the significand may as well
be the one where the next binade begins. -/
theorem units_of_binade {shift m : Nat} (hlow : binade ≤ m) (hhigh : m ≤ 2 * binade) :
    units (shift * binade + m) = m <<< shift := by
  have hbinade : 0 < binade := by decide
  have hquotient : (shift * binade + m) / binade = shift + m / binade := by
    rw [Nat.add_comm, Nat.add_mul_div_right _ _ hbinade, Nat.add_comm]
  rcases Nat.lt_or_ge m (2 * binade) with hlt | hge
  · have hone : m / binade = 1 := by
      rw [Nat.div_eq_iff hbinade]
      omega
    have hsignificand : significand (shift * binade + m) = (m, shift) := by
      rw [significand, hquotient, hone, Nat.add_sub_cancel, Nat.add_sub_cancel_left]
    rw [units, hsignificand]
  · obtain rfl := Nat.le_antisymm hhigh hge
    have hsignificand : significand (shift * binade + 2 * binade) = (binade, shift + 1) := by
      rw [significand, hquotient, Nat.mul_div_cancel _ hbinade]
      have hone : shift + 2 - (shift + 2 - 1) = 1 := by omega
      refine Prod.ext ?_ rfl
      show shift * binade + 2 * binade - (shift + 2 - 1) * binade = binade
      rw [← Nat.add_mul, ← Nat.sub_mul, hone, Nat.one_mul]
    rw [units, hsignificand]
    show binade <<< (shift + 1) = (2 * binade) <<< shift
    rw [Nat.shiftLeft_succ_inside]

variable {n shift : Nat}

/-- The rank of an integer with so many binary digits behind the first 53. -/
theorem nearestRank_of_digits (hlow : binade <<< shift ≤ n) (hhigh : n < (2 * binade) <<< shift) :
    nearestRank (n * unitsPerOne) 1 = (shift + unitBits) * binade + nearestSteps n (2 ^ shift) := by
  have hbinade : binade = 2 ^ 52 := by decide
  rw [Nat.shiftLeft_eq, hbinade] at hlow hhigh
  have hlog : (n * unitsPerOne / 1).log2 = 52 + (shift + unitBits) := by
    have hn : n * unitsPerOne ≠ 0 := by
      have := Nat.two_pow_pos shift
      exact Nat.mul_ne_zero (by omega) unitsPerOne_pos.ne'
    rw [Nat.div_one, Nat.log2_eq_iff hn, unitsPerOne_eq]
    constructor
    · calc 2 ^ (52 + (shift + unitBits)) = 2 ^ 52 * 2 ^ shift * 2 ^ unitBits := by ring
        _ ≤ n * 2 ^ unitBits := Nat.mul_le_mul_right _ hlow
    · calc n * 2 ^ unitBits < 2 * 2 ^ 52 * 2 ^ shift * 2 ^ unitBits :=
            Nat.mul_lt_mul_of_pos_right hhigh (Nat.two_pow_pos _)
        _ = 2 ^ (52 + (shift + unitBits) + 1) := by ring
  have hstep : 1 <<< (shift + unitBits) = 2 ^ shift * unitsPerOne := by
    rw [Nat.one_shiftLeft, unitsPerOne_eq, Nat.pow_add]
  rw [nearestRank_eq, hlog, Nat.add_sub_cancel_left, hstep, nearestSteps_mul _ _ unitsPerOne_pos]

/-- An integer with so many binary digits behind the first 53 is rounded to a multiple of the
power of two that they make up. -/
theorem toInt?_ofNat (hlow : binade <<< shift ≤ n) (hhigh : n < (2 * binade) <<< shift)
    (hshift : shift ≤ 970) :
    (ofNat n).toInt? = some ((nearestSteps n (2 ^ shift) * 2 ^ shift : Nat) : Int) := by
  have hrank := nearestRank_of_digits hlow hhigh
  rw [Nat.shiftLeft_eq] at hlow hhigh
  have hstep := Nat.two_pow_pos shift
  generalize hk : nearestSteps n (2 ^ shift) = k at hrank ⊢
  have hkLow : binade ≤ k := by
    have := (Nat.le_div_iff_mul_le hstep).mpr hlow
    have := le_nearestSteps n (2 ^ shift)
    omega
  have hkHigh : k ≤ 2 * binade := by
    have := (Nat.div_lt_iff_lt_mul hstep).mpr hhigh
    have := nearestSteps_le n (2 ^ shift)
    omega
  have hfinite : (shift + unitBits) * binade + k < magnitudes := by
    simp only [magnitudes, unitBits, binade] at hkHigh ⊢
    omega
  have hunits : units ((shift + unitBits) * binade + k) = k * 2 ^ shift * unitsPerOne := by
    rw [units_of_binade hkLow hkHigh, Nat.shiftLeft_eq, Nat.pow_add, unitsPerOne_eq, Nat.mul_assoc]
  have hvalue : ofNat n = finite false ⟨_, hfinite⟩ := by
    rw [ofNat, ofQuotient, hrank, ofRank, dif_pos hfinite]
  rw [hvalue, toInt?_of_units hunits]
  rfl

end Nearest

end Binary64

end VideoGateway

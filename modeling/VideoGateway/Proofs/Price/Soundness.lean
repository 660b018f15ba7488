import VideoGateway.Proofs.Json.Record
import VideoGateway.Proofs.Price.Counting

/-!
# Sound rules give no price below zero

A rule is sound when its ratio is a finite number from zero on. The product of such
ratios may leave the finite numbers, and then it may stop being a number at all, but
it is never below zero. Requests to replace the rules are looked at for this; a text
of the operator takes their place as soon as it can be read.
-/
namespace VideoGateway

namespace Binary64

theorem place?_zero : zero.place? = some 0 := by
  decide +kernel

@[simp] theorem lt_zero_finite (s : Bool) (r : Fin magnitudes) :
    (finite s r).lt zero = (s && r.val != 0) := by
  rw [lt, place?_zero]
  by_cases hr : r.val = 0 <;> cases s <;> simp [place?, hr, Nat.pos_iff_ne_zero]

@[simp] theorem lt_zero_infinite (s : Bool) : (infinite s).lt zero = s := by
  rw [lt, place?_zero]
  cases s <;> simp [place?, magnitudes, binade]

@[simp] theorem lt_zero_nan : nan.lt zero = false := by
  rw [lt]
  rfl

@[simp] theorem zero_le_finite (s : Bool) (r : Fin magnitudes) :
    zero.le (finite s r) = !(s && r.val != 0) := by
  rw [le, place?_zero]
  by_cases hr : r.val = 0 <;> cases s <;> simp [place?, hr]

theorem lt_zero_ofRank (s : Bool) (rank : Nat) :
    (ofRank s rank).lt zero = (s && rank != 0) := by
  unfold ofRank
  split
  · exact lt_zero_finite s _
  · next h =>
    have hrank : rank ≠ 0 := by
      rintro rfl
      exact h (by decide)
    simp [hrank]

theorem nearestRank_zero (den : Nat) (hden : 0 < den) : nearestRank 0 den = 0 := by
  have htie : (0 == den) = false := by simpa using hden.ne
  simp [nearestRank, htie]

theorem units_zero : units 0 = 0 := by
  decide

theorem lt_zero_mul {x y : Binary64} (hx : x.lt zero = false) (hfinite : y.isFinite = true)
    (hy : zero.le y = true) : (x.mul y).lt zero = false := by
  cases y with
  | infinite t => cases hfinite
  | nan => cases hfinite
  | finite t b =>
    rw [zero_le_finite, Bool.not_eq_true'] at hy
    cases x with
    | nan => exact lt_zero_nan
    | infinite s =>
      rw [lt_zero_infinite] at hx
      rw [mul, hx]
      split
      · exact lt_zero_nan
      · next hb => simpa [hb] using hy
    | finite s a =>
      rw [lt_zero_finite] at hx
      rw [mul, ofQuotient, lt_zero_ofRank]
      by_cases hsign : (s != t) = true
      · -- One of the factors has the other sign, so it is a zero.
        have hproduct : units a * units b = 0 := by
          cases s <;> cases t <;> simp_all [units_zero]
        rw [hproduct, Nat.zero_mul, nearestRank_zero _ (by decide)]
        simp
      · simp [hsign]

theorem lt_zero_foldl_mul {xs : List Binary64} {x : Binary64} (hx : x.lt zero = false)
    (hxs : ∀ y ∈ xs, y.isFinite = true ∧ zero.le y = true) :
    (xs.foldl mul x).lt zero = false := by
  induction xs generalizing x with
  | nil => exact hx
  | cons y xs ih =>
    obtain ⟨hfinite, hy⟩ := hxs y List.mem_cons_self
    apply ih
    · exact lt_zero_mul hx hfinite hy
    · intro z hz
      exact hxs z (List.mem_cons_of_mem y hz)

end Binary64

namespace PriceRules

variable {p current : PriceRules} {text : Bytes}

/-- Every rule has a ratio that is fit for a price. -/
def Sound (p : PriceRules) : Prop :=
  ∀ r ∈ p.rules, r.isSound = true

instance : Decidable p.Sound :=
  inferInstanceAs (Decidable (∀ r ∈ p.rules, _))

theorem unsound?_eq_none_iff : p.unsound? = none ↔ p.Sound := by
  simp [unsound?, Sound]

theorem empty_sound : empty.Sound := by
  decide

theorem starter_sound : starter.Sound := by
  decide +kernel

theorem Sound.of_mem_factors {model : String} {params : Json.Members} (h : p.Sound) :
    ∀ x ∈ p.factors model params, x.isFinite = true ∧ Binary64.zero.le x = true := by
  intro x hx
  unfold factors at hx
  split at hx
  · obtain ⟨r, hr, rfl⟩ := List.mem_map.mp hx
    simpa [PriceRule.isSound] using h r (mem_of_mem_counted hr).1
  · cases hx

/-- No price by sound rules is below zero. -/
theorem Sound.ratio_lt_zero (h : p.Sound) (model : String) (params : Json.Members) :
    (p.ratio model params).lt .zero = false := by
  rw [ratio_eq_foldl_factors]
  apply Binary64.lt_zero_foldl_mul
  · decide +kernel
  · exact h.of_mem_factors

/-- The text begins with rules, and these are sound. -/
def Fit (text : Bytes) : Prop :=
  ∃ rules, read (Document.ofText text).1 = .ok rules ∧ rules.Sound

theorem update_of_readText {rules : PriceRules} (h : Document.readText read text = .ok rules) :
    current.update text = (.ok rules, rules) := by
  rw [update, h]

theorem update_of_error {fault : Document.Fault} (h : Document.readText read text = .error fault) :
    current.update text = (.error fault, current) := by
  rw [update, h]

/-- Where the text of rules is sound, only sound rules take the place of others. -/
theorem update_of_not_fit (current : PriceRules) (hfit : ¬Fit text)
    (hsound : ∀ rules, Document.readText read text = .ok rules → rules.Sound) :
    ∃ fault, current.update text = (.error fault, current) := by
  cases hread : Document.readText read text with
  | error fault => exact ⟨fault, update_of_error hread⟩
  | ok rules =>
    -- What is read of the whole text stands at its beginning.
    obtain ⟨d, hd, hrules⟩ := Document.readText_eq_ok_iff.mp hread
    exact absurd ⟨rules, hd ▸ hrules, hsound rules hread⟩ hfit

end PriceRules

end VideoGateway

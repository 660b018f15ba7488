import Mathlib.Logic.Function.Iterate
import VideoGateway.Proofs.Generation.Size

/-!
# The ratio that a size tells

Exactly the sizes of two positive integers of 64 bits tell a ratio, and it is theirs in
lowest terms. The divisor that brings it there comes from a loop. Each of its rounds
replaces a pair by one with the same divisors, and two rounds at least halve the second
number, so that the loop is left after at most two rounds for each of its binary digits.
-/
namespace VideoGateway

namespace Size

section Rounds

variable {pair : Nat × Nat}

theorem commonDivisor_of_zero (h : pair.2 = 0) : commonDivisor pair = pair.1 := by
  rw [commonDivisor, if_pos h]

theorem commonDivisor_euclidRound (h : pair.2 ≠ 0) :
    commonDivisor (euclidRound pair) = commonDivisor pair := by
  conv_rhs => rw [commonDivisor, if_neg h]

/-- The loop over a pair is left after so many rounds: the second number is zero then, and
in no round before. What is left is the first number. -/
def EndsAfter (pair : Nat × Nat) (rounds : Nat) : Prop :=
  euclidRound^[rounds] pair = (commonDivisor pair, 0) ∧
    ∀ k < rounds, (euclidRound^[k] pair).2 ≠ 0

theorem EndsAfter.zero (h : pair.2 = 0) : EndsAfter pair 0 := by
  refine ⟨?_, fun k hk => absurd hk k.not_lt_zero⟩
  rw [Function.iterate_zero_apply, commonDivisor_of_zero h, ← h]

theorem EndsAfter.succ {rounds : Nat} (h : pair.2 ≠ 0)
    (hrest : EndsAfter (euclidRound pair) rounds) : EndsAfter pair (rounds + 1) := by
  obtain ⟨hend, hbefore⟩ := hrest
  constructor
  · rw [Function.iterate_succ_apply, hend, commonDivisor_euclidRound h]
  · intro k hk
    cases k with
    | zero => exact h
    | succ k =>
      rw [Function.iterate_succ_apply]
      exact hbefore k (Nat.lt_of_succ_lt_succ hk)

theorem two_mul_mod_lt {n d : Nat} (hd : 0 < d) (hle : d ≤ n) : 2 * (n % d) < n := by
  have hmod := Nat.mod_lt n hd
  have hquotient : 1 ≤ n / d := (Nat.one_le_div_iff hd).mpr hle
  have hsum : d * (n / d) + n % d = n := Nat.div_add_mod n d
  have hmul : d * 1 ≤ d * (n / d) := Nat.mul_le_mul_left d hquotient
  omega

/-- Two rounds for each binary digit of the second number are enough. -/
theorem exists_endsAfter (bits : Nat) :
    ∀ pair : Nat × Nat, pair.2 < 2 ^ bits → ∃ rounds ≤ 2 * bits, EndsAfter pair rounds := by
  induction bits with
  | zero =>
    intro pair h
    rw [pow_zero] at h
    exact ⟨0, Nat.le_refl _, .zero (Nat.lt_one_iff.mp h)⟩
  | succ bits ih =>
    intro pair h
    by_cases hfirst : pair.2 = 0
    · exact ⟨0, Nat.zero_le _, .zero hfirst⟩
    by_cases hsecond : (euclidRound pair).2 = 0
    · exact ⟨1, by omega, .succ hfirst (.zero hsecond)⟩
    have hremainder : (euclidRound pair).2 < pair.2 := Nat.mod_lt _ (Nat.pos_of_ne_zero hfirst)
    have hhalf : 2 * (euclidRound (euclidRound pair)).2 < pair.2 :=
      two_mul_mod_lt (Nat.pos_of_ne_zero hsecond) hremainder.le
    obtain ⟨rounds, hrounds, hends⟩ := ih (euclidRound (euclidRound pair)) (by omega)
    exact ⟨rounds + 2, by omega, .succ hfirst (.succ hsecond hends)⟩

end Rounds

/-- The text gives a size of two positive integers of 64 bits, with a small separator. -/
def Extents (s : String) (W H : Nat) : Prop :=
  ∃ width height, Spelled s width 'x' height ∧ Text.Decimal width W ∧ Text.Decimal height H ∧
    (1 ≤ W ∧ W ≤ Word.greatest64) ∧ (1 ≤ H ∧ H ≤ Word.greatest64)

variable {s r : String} {W H : Nat}

theorem decimal_of_extent? {cs : List Char} {n : Nat} (h : extent? cs = some n) :
    Text.Decimal (Text.dropBoth Text.isBlank cs) n ∧ 1 ≤ n ∧ n ≤ Word.greatest64 := by
  unfold extent? at h
  split at h
  · next m hread =>
    split at h
    · next hpos =>
      obtain rfl := Option.some.inj h
      obtain ⟨hdecimal, hm⟩ := Text.readDigits?_eq_some_iff.mp hread
      exact ⟨hdecimal, hpos, hm⟩
    · cases h
  · cases h

/-- What is cut off around a separator and around both halves is blank. -/
theorem spelled_of_cutAt? {separator : Char} {front back : List Char}
    (h : Text.cutAt? separator (Text.trim s).toList = some (front, back)) :
    Spelled s (Text.dropBoth Text.isBlank front) separator (Text.dropBoth Text.isBlank back) := by
  obtain ⟨before, after, hbefore, hafter, hs⟩ := Text.exists_dropBoth Text.isBlank s.toList
  obtain ⟨start, gap, hstart, hgap, hfront⟩ := Text.exists_dropBoth Text.isBlank front
  obtain ⟨gap', stop, hgap', hstop, hback⟩ := Text.exists_dropBoth Text.isBlank back
  refine ⟨before ++ start, gap, gap', stop ++ after, ?_, ?_⟩
  · intro c hc
    simp only [List.mem_append] at hc
    rcases hc with (((hc | hc) | hc) | hc) | hc | hc
    exacts [hbefore c hc, hstart c hc, hgap c hc, hgap' c hc, hstop c hc, hafter c hc]
  · rw [Text.trim, String.toList_ofList] at h
    have hcut := (Text.cutAt?_eq_some_iff.mp h).1
    rw [hfront, hback] at hcut
    rw [hs, hcut]
    simp only [List.append_assoc, List.cons_append]

theorem Extents.ratio?_eq (h : Extents s W H) : ratio? s = some (ratioText W H) := by
  obtain ⟨width, height, hspelled, hwidth, hheight, ⟨hW, hW'⟩, hH, hH'⟩ := h
  exact hspelled.ratio?_eq hwidth hheight hW hW' hH hH'

theorem exists_extents (h : ratio? s = some r) : ∃ W H, Extents s W H := by
  rw [ratio?_eq] at h
  unfold extentsRatio? at h
  split at h
  · cases h
  · next front back hcut =>
    split at h
    · next W H hfront hback =>
      obtain ⟨hwidth, hW⟩ := decimal_of_extent? hfront
      obtain ⟨hheight, hH⟩ := decimal_of_extent? hback
      exact ⟨W, H, _, _, spelled_of_cutAt? hcut, hwidth, hheight, hW, hH⟩
    · cases h

/-- Exactly the sizes of two positive integers of 64 bits tell a ratio, and it is theirs in
lowest terms. The table of the usual sizes tells no other one. The numbers are divided by
no zero, and the loop for their divisor ends. -/
theorem ratio?_lowest_terms (s : String) :
    ((ratio? s).isSome = true ↔ ∃ W H, Extents s W H) ∧
    (∀ W H, Extents s W H → commonDivisor (W, H) ≠ 0 ∧
      ∃ a b : Nat, ratio? s = some (Text.natText a ++ ":" ++ Text.natText b) ∧
        a.Coprime b ∧ a * H = b * W) ∧
    (∀ r, known.lookup (Text.trim s) = some r → extentsRatio? (Text.trim s).toList = some r) ∧
    ∀ pair : Nat × Nat, pair.2 ≤ Word.greatest64 → ∃ rounds ≤ 128, EndsAfter pair rounds := by
  refine ⟨⟨?_, ?_⟩, ?_, ?_, ?_⟩
  · intro hsome
    obtain ⟨r, hr⟩ := Option.isSome_iff_exists.mp hsome
    exact exists_extents hr
  · rintro ⟨W, H, h⟩
    rw [h.ratio?_eq, Option.isSome_some]
  · intro W H h
    obtain ⟨width, height, -, -, -, hW, -⟩ := id h
    obtain ⟨a, b, htext, hlowest⟩ := ratioText_lowest (H := H) hW.1
    refine ⟨?_, a, b, htext ▸ h.ratio?_eq, hlowest⟩
    rw [commonDivisor_eq_gcd]
    exact (Nat.gcd_pos_of_pos_left H hW.1).ne'
  · intro r hknown
    exact extentsRatio?_of_known (Text.trim s, r) (mem_of_lookup_eq_some hknown)
  · intro pair hpair
    have hbits : pair.2 < 2 ^ 64 := by
      rw [Word.greatest64] at hpair
      omega
    exact exists_endsAfter 64 pair hbits

/-- A size that is not among the usual ones, with a sign, zeros in front and blanks. -/
theorem signedSize_lowest_terms :
    Extents " +0720 x\t1080\n" 720 1080 ∧
      ∃ a b : Nat, ratio? " +0720 x\t1080\n" = some (Text.natText a ++ ":" ++ Text.natText b) ∧
        a.Coprime b ∧ a * 1080 = b * 720 := by
  have hspelled : Spelled " +0720 x\t1080\n" ['+', '0', '7', '2', '0'] 'x' ['1', '0', '8', '0'] :=
    ⟨[' '], [' '], ['\t'], ['\n'], List.all_eq_true.mp (by decide), by decide⟩
  have hextents : Extents " +0720 x\t1080\n" 720 1080 :=
    ⟨_, _, hspelled, ⟨_, .inr rfl, by decide, by decide⟩, ⟨_, .inl rfl, by decide, by decide⟩,
      by decide, by decide⟩
  exact ⟨hextents, ((ratio?_lowest_terms " +0720 x\t1080\n").2.1 720 1080 hextents).2⟩

end Size

end VideoGateway

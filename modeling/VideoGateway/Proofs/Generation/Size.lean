import Mathlib.Data.Nat.GCD.Basic
import VideoGateway.Proofs.Basic
import VideoGateway.Proofs.Generation.Resolution

/-!
# Sizes as clients write them

A size is two decimal integers with a separator between them, and blanks wherever
they do not part the digits of an integer. Its height is read for a resolution, and
both for an aspect ratio in lowest terms. The usual sizes have a table of their own,
which says nothing but what the rule says.
-/
namespace VideoGateway

namespace Size

/-- The aspect ratio of a size by its width and its height. -/
def extentsRatio? (size : List Char) : Option String :=
  match Text.cutAt? 'x' size with
  | none => none
  | some (width, height) =>
    match extent? width, extent? height with
    | some w, some h => some (ratioText w h)
    | _, _ => none

/-- The table of the usual sizes says what the rule says. -/
theorem extentsRatio?_of_known :
    ∀ entry ∈ known, extentsRatio? entry.1.toList = some entry.2 := by
  decide +kernel

theorem ratio?_eq (s : String) : ratio? s = extentsRatio? (Text.trim s).toList := by
  unfold ratio?
  dsimp only
  cases hknown : known.lookup (Text.trim s) with
  | none =>
    generalize (Text.trim s).toList = size
    rfl
  | some ratio => exact (extentsRatio?_of_known _ (mem_of_lookup_eq_some hknown)).symm

/-- The text gives a size: a width, a separator and a height, with blanks in front of
each of them and behind. -/
def Spelled (s : String) (width : List Char) (separator : Char) (height : List Char) : Prop :=
  ∃ front before after back : List Char,
    (∀ c ∈ front ++ before ++ after ++ back, Text.isBlank c = true) ∧
      s.toList = front ++ (width ++ before ++ separator :: (after ++ height)) ++ back

variable {s : String} {width height : List Char} {separator : Char} {W H : Nat}

theorem extent?_of_decimal {front cs back : List Char} {n : Nat} (hcs : Text.Decimal cs n)
    (hpos : 0 < n) (hn : n ≤ Word.greatest64) (hfront : ∀ c ∈ front, Text.isBlank c = true)
    (hback : ∀ c ∈ back, Text.isBlank c = true) : extent? (front ++ cs ++ back) = some n := by
  have hread := Text.readDigits?_eq_some_iff.mpr ⟨hcs, hn⟩
  rw [extent?, hcs.dropBoth_eq hfront hback, hread]
  exact if_pos hpos

theorem Spelled.trimmed (h : Spelled s width separator height) (hwidth : Text.Decimal width W)
    (hheight : Text.Decimal height H) : ∃ before after : List Char,
      (∀ c ∈ before, Text.isBlank c = true) ∧ (∀ c ∈ after, Text.isBlank c = true) ∧
        (Text.trim s).toList = width ++ before ++ separator :: (after ++ height) := by
  obtain ⟨front, before, after, back, hblank, hs⟩ := h
  simp only [List.mem_append, or_imp, forall_and] at hblank
  obtain ⟨⟨⟨hfront, hbefore⟩, hafter⟩, hback⟩ := hblank
  refine ⟨before, after, hbefore, hafter, ?_⟩
  rw [Text.trim, String.toList_ofList, hs]
  refine Text.dropBoth_append hfront hback (by simp) ?_ ?_
  · intro c hc
    rw [List.append_assoc, List.head?_append_of_ne_nil _ hwidth.ne_nil] at hc
    exact hwidth.isBlank_of_mem c (List.mem_of_head? hc)
  · intro c hc
    rw [← List.cons_append, ← List.append_assoc, List.getLast?_append_of_ne_nil _ hheight.ne_nil]
      at hc
    exact hheight.isBlank_of_mem c (List.mem_of_getLast? hc)

theorem not_mem_of_decimal {before : List Char} (hwidth : Text.Decimal width W)
    (hbefore : ∀ c ∈ before, Text.isBlank c = true) : 'x' ∉ width ++ before := by
  intro hx
  rcases List.mem_append.mp hx with hx | hx
  · exact absurd (hwidth.range_of_mem hx) (by decide)
  · exact absurd (hbefore _ hx) (by decide)

theorem Spelled.resolution?_eq (h : Spelled s width separator height)
    (hseparator : Text.lowerChar separator = 'x') (hwidth : Text.Decimal width W)
    (hheight : Text.isDigits height = true) :
    resolution? s = some (String.ofList (height ++ ['p'])) := by
  have hdecimal := Text.decimal_of_isDigits hheight
  obtain ⟨before, after, hbefore, hafter, htrim⟩ := h.trimmed hwidth hdecimal
  have hfolded : folded s = width ++ before ++ 'x' :: (after ++ height) := by
    have hfront : (width ++ before).map Text.lowerChar = width ++ before :=
      Text.map_lowerChar_eq fun c hc =>
        (List.mem_append.mp hc).symm.imp (hbefore c) hwidth.range_of_mem
    have hback : (after ++ height).map Text.lowerChar = after ++ height :=
      Text.map_lowerChar_eq fun c hc =>
        (List.mem_append.mp hc).imp (hafter c) hdecimal.range_of_mem
    rw [folded, Text.lower, String.toList_ofList, htrim, List.map_append, List.map_cons, hfront,
      hback, hseparator]
  have htells : Tells (fun width => 'x' ∉ width) height (folded s) := by
    rw [hfolded]
    exact .size (not_mem_of_decimal hwidth hbefore) hafter
  exact htells.resolution?_eq hheight

/-- A size with a small separator tells the ratio of its width to its height. -/
theorem Spelled.ratio?_eq (h : Spelled s width 'x' height) (hwidth : Text.Decimal width W)
    (hheight : Text.Decimal height H) (hW : 0 < W) (hW' : W ≤ Word.greatest64) (hH : 0 < H)
    (hH' : H ≤ Word.greatest64) : ratio? s = some (ratioText W H) := by
  obtain ⟨before, after, hbefore, hafter, htrim⟩ := h.trimmed hwidth hheight
  have hw : extent? ([] ++ width ++ before) = some W :=
    extent?_of_decimal hwidth hW hW' nofun hbefore
  have hh : extent? (after ++ height ++ []) = some H :=
    extent?_of_decimal hheight hH hH' hafter nofun
  have hcut : Text.cutAt? 'x' (width ++ before ++ 'x' :: (after ++ height)) =
      some (width ++ before, after ++ height) :=
    Text.cutAt?_eq_some_iff.mpr ⟨rfl, not_mem_of_decimal hwidth hbefore⟩
  rw [List.nil_append] at hw
  rw [List.append_nil] at hh
  simp only [Size.ratio?_eq, htrim, extentsRatio?, hcut, hw, hh]

theorem Spelled.ratio?_eq_none (h : Spelled s width 'X' height) (hwidth : Text.Decimal width W)
    (hheight : Text.Decimal height H) : ratio? s = none := by
  obtain ⟨before, after, hbefore, hafter, htrim⟩ := h.trimmed hwidth hheight
  have huncut : Text.cutAt? 'x' (width ++ before ++ 'X' :: (after ++ height)) = none := by
    rw [Text.cutAt?_eq_none_iff]
    intro hx
    rw [List.mem_append, List.mem_cons] at hx
    rcases hx with hx | hx | hx
    · exact not_mem_of_decimal hwidth hbefore hx
    · exact absurd hx (by decide)
    rcases List.mem_append.mp hx with hx | hx
    · exact absurd (hafter _ hx) (by decide)
    · exact absurd (hheight.range_of_mem hx) (by decide)
  rw [Size.ratio?_eq, htrim, extentsRatio?, huncut]

theorem ratioText_lowest (hW : 0 < W) : ∃ a b : Nat,
    ratioText W H = Text.natText a ++ ":" ++ Text.natText b ∧ a.Coprime b ∧ a * H = b * W := by
  refine ⟨W / W.gcd H, H / W.gcd H, ?_, ?_, ?_⟩
  · rw [ratioText, commonDivisor_eq_gcd]
  · exact Nat.coprime_div_gcd_div_gcd (Nat.gcd_pos_of_pos_left H hW)
  · rw [Nat.div_mul_right_comm (Nat.gcd_dvd_left W H),
      Nat.div_mul_right_comm (Nat.gcd_dvd_right W H), Nat.mul_comm]

/-- A size tells its height for a resolution, whatever the letter case of its separator.
Where this is a small letter it also tells the ratio of its width to its height, in
lowest terms; after a capital the ratio is left open. -/
theorem resolution_and_ratio_of_spelled (h : Spelled s width separator height)
    (hseparator : separator = 'x' ∨ separator = 'X') (hwidth : Text.Decimal width W)
    (hheight : Text.isDigits height = true) (hvalue : Nat.ofDigitChars 10 height 0 = H)
    (hW : 1 ≤ W) (hW' : W ≤ Word.greatest64) (hH : 1 ≤ H) (hH' : H ≤ Word.greatest64) :
    resolution? s = some (String.ofList (height ++ ['p'])) ∧
    (separator = 'x' → ∃ a b : Nat, ratio? s = some (Text.natText a ++ ":" ++ Text.natText b) ∧
      a.Coprime b ∧ a * H = b * W) ∧
    (separator = 'X' → ratio? s = none) := by
  subst hvalue
  have hdecimal := Text.decimal_of_isDigits hheight
  have hfold : Text.lowerChar separator = 'x' := by
    rcases hseparator with rfl | rfl <;> decide
  refine ⟨h.resolution?_eq hfold hwidth hheight, ?_, ?_⟩
  · rintro rfl
    obtain ⟨a, b, hratio, hlowest⟩ := ratioText_lowest (H := Nat.ofDigitChars 10 height 0) hW
    exact ⟨a, b, hratio ▸ h.ratio?_eq hwidth hdecimal hW hW' hH hH', hlowest⟩
  · rintro rfl
    exact h.ratio?_eq_none hwidth hdecimal

/-- A size that is not among the usual ones, with zeros in front of its width and blanks
around its separator. -/
theorem padded_resolution_and_ratio :
    resolution? " 0720 x\t1080\n" = some "1080p" ∧
      ∃ a b : Nat, ratio? " 0720 x\t1080\n" = some (Text.natText a ++ ":" ++ Text.natText b) ∧
        a.Coprime b ∧ a * 1080 = b * 720 := by
  have hspelled : Spelled " 0720 x\t1080\n" ['0', '7', '2', '0'] 'x' ['1', '0', '8', '0'] :=
    ⟨[' '], [' '], ['\t'], ['\n'], List.all_eq_true.mp (by decide), by decide⟩
  have hwidth : Text.Decimal ['0', '7', '2', '0'] 720 := ⟨_, .inl rfl, by decide, by decide⟩
  have hread := resolution_and_ratio_of_spelled (H := 1080) hspelled (.inl rfl) hwidth (by decide)
    (by decide) (by decide) (by decide) (by decide) (by decide)
  exact ⟨hread.1, hread.2.1 rfl⟩

/-- An upright size with a capital separator tells a resolution, but no ratio. -/
theorem capitalSeparator_without_ratio :
    Spelled "1080X1920" ['1', '0', '8', '0'] 'X' ['1', '9', '2', '0'] ∧
      Text.Decimal ['1', '0', '8', '0'] 1080 ∧ Text.Decimal ['1', '9', '2', '0'] 1920 ∧
      resolution? "1080X1920" = some "1920p" ∧ ratio? "1080X1920" = none := by
  have hspelled : Spelled "1080X1920" ['1', '0', '8', '0'] 'X' ['1', '9', '2', '0'] :=
    ⟨[], [], [], [], nofun, by decide⟩
  exact ⟨hspelled, ⟨_, .inl rfl, by decide, by decide⟩, ⟨_, .inl rfl, by decide, by decide⟩,
    by decide +kernel, by decide +kernel⟩

end Size

end VideoGateway

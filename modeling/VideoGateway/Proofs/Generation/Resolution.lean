import VideoGateway.Generation.Size
import VideoGateway.Proofs.Text.Cut
import VideoGateway.Proofs.Text.Decimal

/-!
# The notations of a resolution

A resolution is told in one of three notations: digits with the unit behind them, a size of
which the height counts, or digits alone. The readings try them in this order, yet no text is
of two of them with different digits. A size is read from its separator on, so anything may
stand in the place of the width.
-/
namespace VideoGateway

namespace Size

variable {s r : String} {digits cs : List Char}

/-- What is read for a resolution: the text between its blanks, in small letters. -/
def folded (s : String) : List Char :=
  (Text.lower (Text.trim s)).toList

theorem folded_eq (s : String) :
    folded s = (Text.dropBoth Text.isBlank s.toList).map Text.lowerChar := by
  rw [folded, Text.lower, Text.trim, String.toList_ofList, String.toList_ofList]

theorem isBlank_of_getLast?_folded {c : Char} (h : c ∈ (folded s).getLast?) :
    Text.isBlank c = false := by
  rw [folded_eq, List.getLast?_map, Option.mem_def, Option.map_eq_some_iff] at h
  obtain ⟨last, hlast, rfl⟩ := h
  obtain ⟨hne, rfl⟩ := List.mem_getLast?_eq_getLast hlast
  rw [Text.isBlank_lowerChar, ← Bool.not_eq_true]
  exact List.rdropWhile_last_not _ _ hne

/-- The notations of a resolution by its digits. What may stand in the place of the width is
left open. -/
inductive Tells (Width : List Char → Prop) (digits : List Char) : List Char → Prop
  | unit : Tells Width digits (digits ++ ['p'])
  | size {width gap : List Char} (hwidth : Width width)
      (hgap : ∀ c ∈ gap, Text.isBlank c = true) :
      Tells Width digits (width ++ 'x' :: (gap ++ digits))
  | bare : Tells Width digits digits

theorem withUnit?_eq_some_iff : withUnit? digits = some r ↔
    Text.isDigits digits = true ∧ r = String.ofList (digits ++ ['p']) := by
  unfold withUnit?
  split
  · next h => simp [h, eq_comm]
  · next h => simp [h]

theorem resolution?_of_unit (hunit : Text.beforeEnd? ['p'] (folded s) = some digits) :
    resolution? s = withUnit? digits := by
  unfold folded at hunit
  rw [resolution?, hunit]

theorem resolution?_of_size {width height : List Char}
    (hunit : Text.beforeEnd? ['p'] (folded s) = none)
    (hcut : Text.cutAt? 'x' (folded s) = some (width, height)) :
    resolution? s = withUnit? (Text.dropBoth Text.isBlank height) := by
  unfold folded at hunit hcut
  rw [resolution?, hunit, hcut]

theorem resolution?_of_bare (hunit : Text.beforeEnd? ['p'] (folded s) = none)
    (hcut : Text.cutAt? 'x' (folded s) = none) : resolution? s = withUnit? (folded s) := by
  unfold folded at hunit hcut ⊢
  rw [resolution?, hunit, hcut]

theorem beforeEnd?_unit {digits : List Char} (h : Text.isDigits digits = true)
    (front : List Char) : Text.beforeEnd? ['p'] (front ++ digits) = none := by
  obtain ⟨hne, hdigit⟩ := Text.isDigits_iff.mp h
  rw [Option.eq_none_iff_forall_ne_some]
  intro digits' hdigits'
  have hlast := congrArg List.getLast? (Text.beforeEnd?_eq_some_iff.mp hdigits')
  rw [List.getLast?_append_of_ne_nil _ hne, List.getLast?_concat] at hlast
  exact absurd (hdigit 'p' (List.mem_of_getLast? hlast)) (by decide)

/-- What is read as a height is cut out of the text from the separator on. -/
theorem tells_of_cut {width height : List Char}
    (hcut : Text.cutAt? 'x' (folded s) = some (width, height)) :
    Tells (fun width => 'x' ∉ width) (Text.dropBoth Text.isBlank height) (folded s) := by
  obtain ⟨hsize, hwidth⟩ := Text.cutAt?_eq_some_iff.mp hcut
  obtain ⟨gap, back, hgap, hback, hheight⟩ := Text.exists_dropBoth Text.isBlank height
  -- The text ends with no blank, so nothing is cut off behind the height.
  have hnil : back = [] := by
    by_contra hne
    have hlast : back.getLast hne ∈ (folded s).getLast? := by
      rw [hsize, hheight, ← List.cons_append, ← List.append_assoc,
        List.getLast?_append_of_ne_nil _ hne]
      exact List.getLast?_eq_some_getLast hne
    have hblank := hback _ (List.getLast_mem hne)
    rw [isBlank_of_getLast?_folded hlast] at hblank
    cases hblank
  rw [hnil, List.append_nil] at hheight
  have htells : Tells (fun width => 'x' ∉ width) (Text.dropBoth Text.isBlank height)
      (width ++ 'x' :: (gap ++ Text.dropBoth Text.isBlank height)) := .size hwidth hgap
  rwa [← hheight, ← hsize] at htells

theorem tells_of_resolution? (h : resolution? s = some r) : ∃ digits,
    Text.isDigits digits = true ∧ Tells (fun width => 'x' ∉ width) digits (folded s) ∧
      r = String.ofList (digits ++ ['p']) := by
  cases hunit : Text.beforeEnd? ['p'] (folded s) with
  | some digits =>
    rw [resolution?_of_unit hunit] at h
    obtain ⟨hdigits, hr⟩ := withUnit?_eq_some_iff.mp h
    refine ⟨digits, hdigits, ?_, hr⟩
    rw [Text.beforeEnd?_eq_some_iff.mp hunit]
    exact .unit
  | none =>
    cases hcut : Text.cutAt? 'x' (folded s) with
    | some halves =>
      rw [resolution?_of_size hunit hcut] at h
      obtain ⟨hdigits, hr⟩ := withUnit?_eq_some_iff.mp h
      exact ⟨_, hdigits, tells_of_cut hcut, hr⟩
    | none =>
      rw [resolution?_of_bare hunit hcut] at h
      obtain ⟨hdigits, hr⟩ := withUnit?_eq_some_iff.mp h
      exact ⟨_, hdigits, .bare, hr⟩

theorem Tells.resolution?_eq (hdigits : Text.isDigits digits = true)
    (h : Tells (fun width => 'x' ∉ width) digits (folded s)) :
    resolution? s = some (String.ofList (digits ++ ['p'])) := by
  have hread : withUnit? digits = some (String.ofList (digits ++ ['p'])) :=
    withUnit?_eq_some_iff.mpr ⟨hdigits, rfl⟩
  generalize hcs : folded s = cs at h
  cases h with
  | unit =>
    have hunit := Text.beforeEnd?_eq_some_iff.mpr hcs
    rw [resolution?_of_unit hunit, hread]
  | @size width gap hwidth hgap =>
    have hunit : Text.beforeEnd? ['p'] (folded s) = none := by
      rw [hcs, ← List.cons_append, ← List.append_assoc]
      exact beforeEnd?_unit hdigits _
    have hcut : Text.cutAt? 'x' (folded s) = some (width, gap ++ digits) :=
      Text.cutAt?_eq_some_iff.mpr ⟨hcs, hwidth⟩
    have hheight : Text.dropBoth Text.isBlank (gap ++ digits ++ []) = digits :=
      (Text.decimal_of_isDigits hdigits).dropBoth_eq hgap nofun
    rw [List.append_nil] at hheight
    rw [resolution?_of_size hunit hcut, hheight, hread]
  | bare =>
    have hunit : Text.beforeEnd? ['p'] (folded s) = none := by
      rw [hcs]
      exact beforeEnd?_unit hdigits []
    have hcut : Text.cutAt? 'x' (folded s) = none := by
      rw [hcs, Text.cutAt?_eq_none_iff]
      intro hx
      exact absurd ((Text.isDigits_iff.mp hdigits).2 'x' hx) (by decide)
    rw [resolution?_of_bare hunit hcut, hcs, hread]

theorem folded_unit (hdigits : Text.isDigits digits = true) :
    folded (String.ofList (digits ++ ['p'])) = digits ++ ['p'] := by
  have hdecimal := Text.decimal_of_isDigits hdigits
  have htrim : Text.dropBoth Text.isBlank ([] ++ (digits ++ ['p']) ++ []) = digits ++ ['p'] := by
    refine Text.dropBoth_append nofun nofun (by simp) ?_ ?_
    · intro c hc
      rw [List.head?_append_of_ne_nil _ hdecimal.ne_nil] at hc
      exact hdecimal.isBlank_of_mem c (List.mem_of_head? hc)
    · intro c hc
      rw [List.getLast?_concat, Option.mem_some_iff] at hc
      subst hc
      decide
  rw [List.nil_append, List.append_nil] at htrim
  have hlower : digits.map Text.lowerChar = digits :=
    Text.map_lowerChar_eq fun c hc => .inr (hdecimal.range_of_mem hc)
  rw [folded_eq, String.toList_ofList, htrim, List.map_append, hlower]
  rfl

/-- A width as it should be: digits, and blanks behind them. -/
def Measured (width : List Char) : Prop :=
  ∃ digits gap, width = digits ++ gap ∧ Text.isDigits digits = true ∧
    ∀ c ∈ gap, Text.isBlank c = true

theorem Measured.not_mem {width : List Char} (h : Measured width) : 'x' ∉ width := by
  obtain ⟨digits, gap, rfl, hdigits, hgap⟩ := h
  intro hx
  rcases List.mem_append.mp hx with hx | hx
  · exact absurd ((Text.isDigits_iff.mp hdigits).2 'x' hx) (by decide)
  · exact absurd (hgap 'x' hx) (by decide)

theorem Tells.mono {Width Width' : List Char → Prop} (hwidth : ∀ width, Width width → Width' width)
    (h : Tells Width digits cs) : Tells Width' digits cs := by
  cases h with
  | unit => exact .unit
  | size hw hgap => exact .size (hwidth _ hw) hgap
  | bare => exact .bare

/-- A text tells a resolution exactly if it is in one of the three notations, with anything but
a separator in the place of the width; with digits there in particular. What is read from it
is read as itself. -/
theorem resolution?_grammar (s : String) :
    (∀ r, resolution? s = some r ↔ ∃ digits, Text.isDigits digits = true ∧
      Tells (fun width => 'x' ∉ width) digits (folded s) ∧
        r = String.ofList (digits ++ ['p'])) ∧
    (∀ digits, Text.isDigits digits = true → Tells Measured digits (folded s) →
      resolution? s = some (String.ofList (digits ++ ['p']))) ∧
    ∀ r, resolution? s = some r → resolution? r = some r := by
  refine ⟨fun r => ⟨tells_of_resolution?, ?_⟩, ?_, ?_⟩
  · rintro ⟨digits, hdigits, htells, rfl⟩
    exact htells.resolution?_eq hdigits
  · intro digits hdigits htells
    exact (htells.mono fun _ h => h.not_mem).resolution?_eq hdigits
  · intro r hr
    obtain ⟨digits, hdigits, -, rfl⟩ := tells_of_resolution? hr
    have htells : Tells (fun width => 'x' ∉ width) digits
        (folded (String.ofList (digits ++ ['p']))) := by
      rw [folded_unit hdigits]
      exact .unit
    exact htells.resolution?_eq hdigits

/-- A size with a capital separator, zeros in front of its height and blanks. -/
theorem spacedSize_resolution : Text.isDigits ['0', '7', '2', '0'] = true ∧
    Tells Measured ['0', '7', '2', '0'] (folded " 1280 X\t0720\n") ∧
    resolution? " 1280 X\t0720\n" = some "0720p" ∧ resolution? "0720p" = some "0720p" := by
  obtain ⟨-, hread, hagain⟩ := resolution?_grammar " 1280 X\t0720\n"
  have hdigits : Text.isDigits ['0', '7', '2', '0'] = true := by decide
  have hwidth : Measured ['1', '2', '8', '0', ' '] :=
    ⟨['1', '2', '8', '0'], [' '], rfl, by decide, List.all_eq_true.mp (by decide)⟩
  have htells : Tells Measured ['0', '7', '2', '0'] (folded " 1280 X\t0720\n") :=
    .size hwidth (List.all_eq_true.mp (by decide) : ∀ c ∈ ['\t'], Text.isBlank c = true)
  have htold : resolution? " 1280 X\t0720\n" = some "0720p" := hread _ hdigits htells
  exact ⟨hdigits, htells, htold, hagain _ htold⟩

theorem Tells.isDigit_head? (h : Tells Measured digits cs) (hdigits : Text.isDigits digits = true) :
    ∀ c ∈ cs.head?, c.isDigit = true := by
  have hhead : ∀ {digits : List Char}, Text.isDigits digits = true → ∀ rest : List Char,
      ∀ c ∈ (digits ++ rest).head?, c.isDigit = true := by
    intro digits hdigits rest c hc
    obtain ⟨hne, hdigit⟩ := Text.isDigits_iff.mp hdigits
    rw [List.head?_append_of_ne_nil _ hne] at hc
    exact hdigit c (List.mem_of_head? hc)
  cases h with
  | unit => exact hhead hdigits _
  | size hwidth _ =>
    obtain ⟨digits', gap, rfl, hdigits', -⟩ := hwidth
    rw [List.append_assoc]
    exact hhead hdigits' _
  | bare =>
    have hbare := hhead hdigits []
    rwa [List.append_nil] at hbare

/-- Letters in the place of a width go unnoticed. -/
theorem unmeasured_resolution : resolution? "hdx720" = some "720p" ∧
    ¬∃ digits, Text.isDigits digits = true ∧ Tells Measured digits (folded "hdx720") := by
  constructor
  · decide +kernel
  · rintro ⟨digits, hdigits, htells⟩
    have hhead : 'h' ∈ (folded "hdx720").head? := by decide
    exact absurd (htells.isDigit_head? hdigits 'h' hhead) (by decide)

end Size

end VideoGateway

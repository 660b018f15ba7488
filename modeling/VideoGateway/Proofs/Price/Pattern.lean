import VideoGateway.Price.Pattern
import VideoGateway.Proofs.Text.Cut

/-!
# The models that a pattern stands for

A star stands for any text, so a pattern with one star has exactly the models that begin with
the text in front of it and go on, after any text, to end with the text behind it. For this the
two ends must have room beside each other, which their sizes in octets decide.
-/
namespace VideoGateway

namespace Pattern

variable {p front back model : String}

theorem accepts_exact_iff : (exact p).accepts model = true ↔ model = p := by
  rw [accepts, beq_iff_eq, eq_comm]

theorem accepts_startsWith_iff :
    (startsWith front).accepts model = true ↔ ∃ rest, model = front ++ rest := by
  rw [accepts, Text.hasStart_iff]

theorem accepts_endsWith_iff :
    (endsWith back).accepts model = true ↔ ∃ rest, model = rest ++ back := by
  rw [accepts, Text.hasEnd_iff]

theorem accepts_between_iff :
    (between front back).accepts model = true ↔ ∃ mid, model = front ++ mid ++ back := by
  rw [accepts, Bool.and_eq_true, Bool.and_eq_true, decide_eq_true_eq, Text.hasStart_iff,
    Text.hasEnd_iff]
  constructor
  · rintro ⟨⟨hsize, rest, rfl⟩, before, hbefore⟩
    have hle : front.utf8ByteSize ≤ before.utf8ByteSize := by
      rw [hbefore, String.utf8ByteSize_append] at hsize
      omega
    obtain ⟨mid, rfl⟩ := Text.exists_middle hbefore hle
    exact ⟨mid, String.append_assoc.symm⟩
  · rintro ⟨mid, rfl⟩
    refine ⟨⟨?_, mid ++ back, String.append_assoc⟩, front ++ mid, rfl⟩
    rw [String.utf8ByteSize_append, String.utf8ByteSize_append]
    omega

theorem parse_of_not_mem (h : '*' ∉ p.toList) : parse p = .exact p := by
  rw [parse, Text.splitOnce?_eq_none_iff.mpr h]

theorem parse_append (hfront : '*' ∉ front.toList) (back : String) :
    parse (front ++ "*" ++ back) =
      if back.toList.contains '*' then .invalid
      else if front.isEmpty then .endsWith back
      else if back.isEmpty then .startsWith front
      else .between front back := by
  have hsplit : Text.splitOnce? '*' (front ++ "*" ++ back) = some (front, back) :=
    Text.splitOnce?_eq_some_iff.mpr ⟨rfl, hfront⟩
  rw [parse, hsplit]

/-- Also where an end is empty, one star stands for any text. -/
theorem accepts_parse_append (hfront : '*' ∉ front.toList) (hback : '*' ∉ back.toList) :
    (parse (front ++ "*" ++ back)).accepts model = true ↔ ∃ mid, model = front ++ mid ++ back := by
  have hone : back.toList.contains '*' = false := by
    rwa [← Bool.not_eq_true, List.contains_iff_mem]
  rw [parse_append hfront, hone, if_neg Bool.false_ne_true]
  split
  · next hempty =>
    obtain rfl := String.isEmpty_iff.mp hempty
    simp only [accepts_endsWith_iff, String.empty_append]
  · split
    · next hempty =>
      obtain rfl := String.isEmpty_iff.mp hempty
      simp only [accepts_startsWith_iff, String.append_empty]
    · exact accepts_between_iff

theorem count_star (front back : String) : (front ++ "*" ++ back).toList.count '*' =
    front.toList.count '*' + 1 + back.toList.count '*' := by
  rw [String.toList_append, String.toList_append, List.count_append, List.count_append]
  rfl

theorem parse_of_two_le_count (h : 2 ≤ p.toList.count '*') : parse p = .invalid := by
  cases hsplit : Text.splitOnce? '*' p with
  | none =>
    rw [List.count_eq_zero.mpr (Text.splitOnce?_eq_none_iff.mp hsplit)] at h
    omega
  | some ends =>
    obtain ⟨hp, hfront⟩ := Text.splitOnce?_eq_some_iff.mp hsplit
    have hback : '*' ∈ ends.2.toList := by
      have hcount : p.toList.count '*' = ends.1.toList.count '*' + 1 + ends.2.toList.count '*' := by
        rw [hp]
        exact count_star ends.1 ends.2
      rw [hcount, List.count_eq_zero.mpr hfront] at h
      exact List.count_pos_iff.mp (by omega)
    rw [parse, hsplit]
    exact if_pos (List.contains_iff_mem.mpr hback)

/-- A pattern without a star stands for the model of that very name, one with a star for the
models with any text in its place, and one with more stars for none. -/
theorem accepts_parse_iff (p model : String) :
    (p.toList.count '*' = 0 → ((parse p).accepts model = true ↔ model = p)) ∧
    (∀ front back, p = front ++ "*" ++ back → p.toList.count '*' = 1 →
      ((parse p).accepts model = true ↔ ∃ mid, model = front ++ mid ++ back)) ∧
    (2 ≤ p.toList.count '*' → (parse p).accepts model = false) := by
  refine ⟨?_, ?_, ?_⟩
  · intro h
    rw [parse_of_not_mem (List.count_eq_zero.mp h), accepts_exact_iff]
  · rintro front back rfl h
    rw [count_star] at h
    have hfront : front.toList.count '*' = 0 := by omega
    have hback : back.toList.count '*' = 0 := by omega
    exact accepts_parse_append (List.count_eq_zero.mp hfront) (List.count_eq_zero.mp hback)
  · intro h
    rw [parse_of_two_le_count h, accepts]

/-- The two ends of a pattern do not overlap in a model. -/
theorem overlapping_not_accepted : (parse "ab*ba").accepts "aba" = false ∧
    ¬∃ mid : String, "aba" = "ab" ++ mid ++ "ba" := by
  have haccepts := (accepts_parse_iff "ab*ba" "aba").2.1 "ab" "ba" (by decide) (by decide)
  have hnot : (parse "ab*ba").accepts "aba" = false := by decide
  refine ⟨hnot, fun hmid => ?_⟩
  rw [haccepts.mpr hmid] at hnot
  cases hnot

end Pattern

end VideoGateway

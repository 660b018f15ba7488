import Mathlib.Data.List.Basic
import VideoGateway.Text.Cut

/-!
# Texts cut in two

What the cuts give, in terms of the texts put together again. A text may be divided in many
ways, and of two divisions the one with fewer octets in front lies before the other.
-/
namespace VideoGateway.Text

variable {start stop front rest back s : String} {sep : Char}

theorem cutAt?_eq_none_iff {cs : List Char} : cutAt? sep cs = none ↔ sep ∉ cs := by
  induction cs with
  | nil => simp [cutAt?]
  | cons c cs ih =>
    by_cases h : c = sep
    · simp [cutAt?, h]
    · have hne : sep ≠ c := Ne.symm h
      simp [cutAt?, h, Option.map_eq_none_iff, ih, hne]

/-- The cut of a reversed list is the one at the last separator. -/
theorem cutAt?_reverse_eq_some_iff {cs before after : List Char} :
    cutAt? sep cs.reverse = some (after, before) ↔
      cs = before.reverse ++ sep :: after.reverse ∧ sep ∉ after := by
  have hlist : (before.reverse ++ sep :: after.reverse).reverse = after ++ sep :: before := by
    simp
  rw [cutAt?_eq_some_iff, ← hlist, List.reverse_inj]

theorem cutAt?_reverse {before after : List Char} (h : sep ∉ after) :
    cutAt? sep (before ++ sep :: after).reverse = some (after.reverse, before.reverse) := by
  rw [cutAt?_reverse_eq_some_iff, List.reverse_reverse, List.reverse_reverse, List.mem_reverse]
  exact ⟨rfl, h⟩

section Stretches

variable {p : Char → Bool} {c : Char}

/-- A stretch ends before a character that it does not take. -/
theorem takeWhile_append_cons (hc : p c = false) (cs ds : List Char) :
    (cs ++ c :: ds).takeWhile p = cs.takeWhile p := by
  have hstop : (c :: ds).takeWhile p = [] := List.takeWhile_cons_of_neg (by simp [hc])
  rw [List.takeWhile_append, hstop, List.append_nil]
  split
  · next hall => exact ((List.takeWhile_prefix _).eq_of_length hall).symm
  · rfl

theorem dropWhile_append_cons (hc : p c = false) (cs ds : List Char) :
    (cs ++ c :: ds).dropWhile p = cs.dropWhile p ++ c :: ds := by
  have hstop : (c :: ds).dropWhile p = c :: ds := List.dropWhile_cons_of_neg (by simp [hc])
  rw [List.dropWhile_append, hstop]
  split
  · next hnone => rw [List.isEmpty_iff.mp hnone, List.nil_append]
  · rfl

end Stretches

section Occurrences

variable {part cs after : List Char}

theorem afterStart?_eq_none_iff : afterStart? part cs = none ↔ ¬ part <+: cs := by
  rw [Option.eq_none_iff_forall_ne_some, ← not_exists, not_iff_not]
  simp only [afterStart?_eq_some_iff]
  exact exists_congr fun after => eq_comm

theorem afterFirst?_eq_none_iff : afterFirst? part cs = none ↔ ¬ part <:+: cs := by
  induction cs with
  | nil => rw [afterFirst?, afterStart?_eq_none_iff, List.prefix_nil, List.infix_nil]
  | cons c cs ih =>
    rw [afterFirst?, Option.or_eq_none_iff, afterStart?_eq_none_iff, ih, List.infix_cons_iff,
      not_or]

theorem append_dropLast_begins (front part after : List Char) :
    front ++ part.dropLast <+: front ++ part ++ after := by
  rw [List.append_assoc]
  exact (List.prefix_append_right_inj front).mpr
    ((List.dropLast_prefix part).trans (List.prefix_append part after))

/-- What follows the first occurrence of a part: before the last character of that one, there is
no other. -/
theorem afterFirst?_eq_some_iff (hne : part ≠ []) : afterFirst? part cs = some after ↔
    ∃ front, cs = front ++ part ++ after ∧ ¬ part <:+: front ++ part.dropLast := by
  induction cs with
  | nil => simp [afterFirst?, afterStart?_eq_some_iff, hne]
  | cons c cs ih =>
    rw [afterFirst?, Option.or_eq_some_iff, afterStart?_eq_none_iff, afterStart?_eq_some_iff, ih]
    constructor
    · rintro (hstart | ⟨hstart, front, rfl, hfront⟩)
      · refine ⟨[], hstart, ?_⟩
        intro hwithin
        have hlength := hwithin.length_le
        have hpos := List.length_pos_iff.mpr hne
        rw [List.nil_append, List.length_dropLast] at hlength
        omega
      · refine ⟨c :: front, rfl, ?_⟩
        rw [List.cons_append, List.infix_cons_iff, not_or]
        refine ⟨?_, hfront⟩
        intro hbegins
        exact hstart (hbegins.trans (append_dropLast_begins (c :: front) part after))
    · rintro ⟨front, hcs, hfront⟩
      cases front with
      | nil => exact .inl hcs
      | cons d front =>
        obtain ⟨rfl, rfl⟩ := List.cons.inj hcs
        rw [List.cons_append, List.infix_cons_iff, not_or] at hfront
        refine .inr ⟨?_, front, rfl, hfront.2⟩
        intro hbegins
        -- Both begin the text, and the part is not the longer one.
        apply hfront.1
        apply List.prefix_of_prefix_length_le hbegins
          (append_dropLast_begins (c :: front) part after)
        rw [List.cons_append, List.length_cons, List.length_append, List.length_dropLast]
        omega

theorem hasPart_eq_false_iff {part s : String} :
    hasPart part s = false ↔ ¬ part.toList <:+: s.toList := by
  rw [hasPart, Option.isSome_eq_false_iff, Option.isNone_iff_eq_none, afterFirst?_eq_none_iff]

end Occurrences

theorem eq_append_ofList {cs : List Char} (h : s.toList = start.toList ++ cs) :
    s = start ++ String.ofList cs := by
  rw [← String.toList_inj, String.toList_append, String.toList_ofList, h]

theorem eq_ofList_append {cs : List Char} (h : s.toList = cs ++ stop.toList) :
    s = String.ofList cs ++ stop := by
  rw [← String.toList_inj, String.toList_append, String.toList_ofList, h]

theorem stripStart?_eq_some_iff : stripStart? start s = some rest ↔ s = start ++ rest := by
  simp only [stripStart?, Option.map_eq_some_iff, afterStart?_eq_some_iff]
  constructor
  · rintro ⟨cs, hcs, rfl⟩
    exact eq_append_ofList hcs
  · rintro rfl
    exact ⟨rest.toList, String.toList_append, String.ofList_toList⟩

theorem stripEnd?_eq_some_iff : stripEnd? stop s = some front ↔ s = front ++ stop := by
  simp only [stripEnd?, Option.map_eq_some_iff, beforeEnd?_eq_some_iff]
  constructor
  · rintro ⟨cs, hcs, rfl⟩
    exact eq_ofList_append hcs
  · rintro rfl
    exact ⟨front.toList, String.toList_append, String.ofList_toList⟩

theorem hasStart_iff : hasStart start s = true ↔ ∃ rest, s = start ++ rest := by
  have hstrip : hasStart start s = (stripStart? start s).isSome := Option.isSome_map.symm
  simp only [hstrip, Option.isSome_iff_exists, stripStart?_eq_some_iff]

theorem hasEnd_iff : hasEnd stop s = true ↔ ∃ front, s = front ++ stop := by
  have hstrip : hasEnd stop s = (stripEnd? stop s).isSome := Option.isSome_map.symm
  simp only [hstrip, Option.isSome_iff_exists, stripEnd?_eq_some_iff]

theorem splitOnce?_eq_none_iff : splitOnce? sep s = none ↔ sep ∉ s.toList := by
  rw [splitOnce?, Option.map_eq_none_iff, cutAt?_eq_none_iff]

theorem splitOnce?_eq_some_iff : splitOnce? sep s = some (front, back) ↔
    s = front ++ String.singleton sep ++ back ∧ sep ∉ front.toList := by
  have hlist : (front ++ String.singleton sep ++ back).toList =
      front.toList ++ sep :: back.toList := by
    rw [String.toList_append, String.toList_append, String.toList_singleton, List.append_assoc,
      List.singleton_append]
  simp only [splitOnce?, Option.map_eq_some_iff, Prod.exists, cutAt?_eq_some_iff, Prod.mk.injEq]
  rw [← String.toList_inj, hlist]
  constructor
  · rintro ⟨a, b, ⟨hs, hsep⟩, rfl, rfl⟩
    rw [String.toList_ofList, String.toList_ofList]
    exact ⟨hs, hsep⟩
  · rintro ⟨hs, hsep⟩
    exact ⟨front.toList, back.toList, ⟨hs, hsep⟩, String.ofList_toList, String.ofList_toList⟩

/-- Of two divisions of a text, the one with fewer octets in front divides the front of the
other. -/
theorem exists_middle {before : String} (h : front ++ rest = before ++ back)
    (hsize : front.utf8ByteSize ≤ before.utf8ByteSize) : ∃ mid, rest = mid ++ back := by
  have hlist : front.toList ++ rest.toList = before.toList ++ back.toList := by
    rw [← String.toList_append, ← String.toList_append, h]
  rcases List.append_eq_append_iff.mp hlist with ⟨mid, -, hrest⟩ | ⟨more, hfront, hback⟩
  · exact ⟨_, eq_ofList_append hrest⟩
  · -- The front reaches beyond the other one by nothing at all.
    have hmore : front = before ++ String.ofList more := eq_append_ofList hfront
    have hempty : String.ofList more = "" := by
      rw [← String.utf8ByteSize_eq_zero_iff]
      rw [hmore, String.utf8ByteSize_append] at hsize
      omega
    have hnil : more = [] := String.ofList_eq_empty_iff.mp hempty
    refine ⟨"", ?_⟩
    rw [String.empty_append, ← String.toList_inj, hback, hnil, List.nil_append]

end VideoGateway.Text

import VideoGateway.Proofs.Url.Continued

/-!
# The text of an address that goes on

Unless a segment is dots or a fragment begins, the text of an address goes on with the escaped
form of what the address goes on with. From that form, what has no percent signs can be read
again, so two such ends of one address are told apart.
-/
namespace VideoGateway.Url

open Text (cutAt?_eq_some_iff cutAt?_eq_none_iff)
open Text.Percent (encode encode_append encode_inj mem_encode)

variable {u : Url} {cs ds : List Char} {query : String} {mark : Char}

section Segments

/-- The segment leads to the place itself or to the one above. -/
def IsDots (segment : List Char) : Prop :=
  String.ofList (segment.map Text.lowerChar) ∈ [".", "%2e", "..", ".%2e", "%2e.", "%2e%2e"]

instance (segment : List Char) : Decidable (IsDots segment) :=
  inferInstanceAs (Decidable (_ ∈ _))

theorem eq_of_lowerChar {c d : Char} (h : Text.lowerChar c = d) :
    c = d ∨ 97 ≤ d.toNat ∧ c.toNat + 32 = d.toNat := by
  rw [Text.lowerChar] at h
  split at h
  · next hcapital =>
    simp only [Bool.and_eq_true, decide_eq_true_eq] at hcapital
    have hvalid : (c.toNat + 32).isValidChar := .inl (by omega)
    have hd : d.toNat = c.toNat + 32 := by
      rw [← h, Char.ofNat, dif_pos hvalid]
      rfl
    exact .inr (by omega)
  · exact .inl h

/-- The ways to write a text with the letter in either case. -/
def spellings : List Char → List (List Char)
  | [] => [[]]
  | d :: ds =>
    (if d = 'e' then ['e', 'E'] else [d]).flatMap fun c => (spellings ds).map (c :: ·)

theorem mem_spellings {segment text : List Char} (h : segment.map Text.lowerChar = text)
    (htext : ∀ d ∈ text, d.toNat < 97 ∨ d = 'e') : segment ∈ spellings text := by
  induction segment generalizing text with
  | nil =>
    rw [← h]
    exact List.mem_singleton.mpr rfl
  | cons c segment ih =>
    rw [List.map_cons] at h
    rw [← h, List.forall_mem_cons] at htext
    rw [← h, spellings, List.mem_flatMap]
    refine ⟨c, ?_, List.mem_map_of_mem (ih rfl htext.2)⟩
    rcases eq_of_lowerChar (c := c) rfl with hsame | ⟨hsmall, hcapital⟩
    · rw [← hsame]
      split
      · next he =>
        rw [he]
        exact List.mem_cons_self
      · exact List.mem_cons_self
    · have he : Text.lowerChar c = 'e' := by
        rcases htext.1 with hlow | he
        · omega
        · exact he
      rw [he] at hcapital
      have hc : c = 'E' := by
        apply Char.toNat_inj.mp
        have h101 : 'e'.toNat = 101 := rfl
        have h69 : 'E'.toNat = 69 := rfl
        omega
      rw [he, hc]
      decide

theorem decode?_of_isDots {segment : List Char} (h : IsDots segment) :
    Text.Percent.decode? (String.ofList segment) ∈ [some ".", some ".."] := by
  have hspelled : ∀ text ∈ [".", "%2e", "..", ".%2e", "%2e.", "%2e%2e"],
      text.toList.all (fun d => d.toNat < 97 ∨ d = 'e') = true ∧
        ∀ spelling ∈ spellings text.toList,
          Text.Percent.decode? (String.ofList spelling) ∈ [some ".", some ".."] := by
    decide
  obtain ⟨htext, hdecode⟩ := hspelled _ h
  apply hdecode segment
  exact mem_spellings String.toList_ofList.symm (List.all_iff_forall_prop.mp htext)

def escapeSegment (segment : List Char) : String :=
  encode isEscapedInPath (String.ofList segment)

theorem pushSegment_of_not_isDots {segment : List Char} (h : ¬ IsDots segment) (isLast : Bool)
    (done : List String) : pushSegment isLast done segment = escapeSegment segment :: done := by
  simp only [IsDots, List.mem_cons, List.not_mem_nil, or_false, not_or] at h
  obtain ⟨h₁, h₂, h₃, h₄, h₅, h₆⟩ := h
  rw [pushSegment, if_neg (by simp [h₁, h₂]), if_neg (by simp [h₃, h₄, h₅, h₆])]
  rfl

theorem pushSegments_eq (done : List String) {segs : List (List Char)}
    (h : ∀ segment ∈ segs, ¬ IsDots segment) :
    pushSegments done segs = (segs.map escapeSegment).reverse ++ done := by
  induction segs generalizing done with
  | nil => rfl
  | cons segment segs ih =>
    rw [List.forall_mem_cons] at h
    have hpushed : pushSegments (escapeSegment segment :: done) segs =
        ((segment :: segs).map escapeSegment).reverse ++ done := by
      rw [ih _ h.2, List.map_cons, List.reverse_cons, List.append_assoc, List.singleton_append]
    cases segs with
    | nil => exact pushSegment_of_not_isDots h.1 true done
    | cons next segs => rw [pushSegments_cons_cons, pushSegment_of_not_isDots h.1, hpushed]

theorem join_escapeSegment {segs : List (List Char)} (hne : segs ≠ []) :
    String.join ((segs.map escapeSegment).map ("/" ++ ·)) =
      "/" ++ escapeSegment (['/'].intercalate segs) := by
  induction segs with
  | nil => exact absurd rfl hne
  | cons segment segs ih =>
    cases segs with
    | nil =>
      rw [List.intercalate_singleton]
      exact String.join_cons.trans String.append_empty
    | cons next segs =>
      have hslash : escapeSegment ['/'] = "/" := by decide
      have hjoined : escapeSegment (['/'].intercalate (segment :: next :: segs)) =
          escapeSegment segment ++ "/" ++ escapeSegment (['/'].intercalate (next :: segs)) := by
        rw [List.intercalate_cons_cons, escapeSegment, String.ofList_append, String.ofList_append,
          encode_append, encode_append, ← escapeSegment, ← escapeSegment, ← escapeSegment, hslash]
      rw [List.map_cons, List.map_cons, String.join_cons, ih (List.cons_ne_nil _ _), hjoined]
      simp only [String.append_assoc]

end Segments

/-- What an address goes on with, in the form in which it is sent. -/
def escapeTail (cs : List Char) : String :=
  match cutTail '?' cs with
  | (path, none) => escapeSegment path
  | (path, some query) => escapeSegment path ++ "?" ++ escapeQuery query

instance (cs : List Char) : Decidable (CountsAtEnd cs) :=
  decidable_of_iff (cs.all (fun c => c ≠ '\t' ∧ c ≠ '\n' ∧ c ≠ '\r') = true ∧
    cs.getLast?.all (fun c => 0x20 < c.toNat) = true) (by simp [CountsAtEnd, Option.all_eq_true])

/-- The tail stays in its place: it begins no fragment, and no segment of its path is dots. -/
structure Stays (cs : List Char) : Prop where
  counts : CountsAtEnd cs
  noFragment : '#' ∉ cs
  noBackslash : '\\' ∉ cs
  noDots : ∀ segment ∈ Text.splitAll '/' (cutTail '?' cs).1, ¬ IsDots segment

instance (cs : List Char) : Decidable (Stays cs) :=
  decidable_of_iff (CountsAtEnd cs ∧ '#' ∉ cs ∧ '\\' ∉ cs ∧
      ∀ segment ∈ Text.splitAll '/' (cutTail '?' cs).1, ¬ IsDots segment)
    ⟨fun ⟨hcounts, hfragment, hback, hdots⟩ => ⟨hcounts, hfragment, hback, hdots⟩,
      fun h => ⟨h.counts, h.noFragment, h.noBackslash, h.noDots⟩⟩

section Texts

theorem base_eq (u : Url) : u.base = u.scheme ++ "://" ++ u.credentials ++ u.origin ++
    String.join (u.path.map ("/" ++ ·)) :=
  rfl

theorem text_continued_query (hfragment : u.fragment = none) (hquery : u.query = some query)
    (h : '#' ∉ cs) : (u.continued cs).text = u.text ++ escapeQuery cs := by
  rw [continued, hfragment, hquery, cutTail_of_not_mem h, text, text, hquery, String.append_assoc]
  dsimp only
  rw [String.append_assoc, String.append_assoc]
  rfl

theorem cutTail_cases (mark : Char) (cs : List Char) : (mark ∉ cs ∧ cutTail mark cs = (cs, none)) ∨
    ∃ front back, cs = front ++ mark :: back ∧ mark ∉ front ∧
      cutTail mark cs = (front, some back) := by
  by_cases hmark : mark ∈ cs
  · obtain ⟨front, back, rfl, hfront⟩ := List.eq_append_cons_of_mem hmark
    exact .inr ⟨front, back, rfl, hfront, by rw [cutTail, cutAt?_eq_some_iff.mpr ⟨rfl, hfront⟩]⟩
  · exact .inl ⟨hmark, cutTail_of_not_mem hmark⟩

theorem segments_eq (h : '\\' ∉ cs) : segments cs = Text.splitAll '/' cs := by
  have hself : cs.map (fun c => if c = '\\' then '/' else c) = cs := by
    rw [List.map_congr_left (g := id), List.map_id]
    intro c hc
    exact if_neg fun hback : c = '\\' => h (hback ▸ hc)
  rw [segments, hself]

theorem text_continued_path (hfragment : u.fragment = none) (hquery : u.query = none)
    (hpath : ∃ kept, u.path = kept ++ [""]) (h : Stays cs) :
    (u.continued cs).text = u.text ++ escapeTail cs := by
  obtain ⟨kept, hpath⟩ := hpath
  have hkept : u.path.reverse.tail = kept.reverse := by
    rw [hpath, List.reverse_append]
    rfl
  have hjoin : ∀ path : List Char, (∀ segment ∈ Text.splitAll '/' path, ¬ IsDots segment) →
      '\\' ∉ path → String.join
        ((pushSegments kept.reverse (segments path)).reverse.map ("/" ++ ·)) =
          String.join (u.path.map ("/" ++ ·)) ++ escapeSegment path := by
    intro path hdots hback
    rw [segments_eq hback, pushSegments_eq _ hdots, List.reverse_append, List.reverse_reverse,
      List.reverse_reverse, List.map_append, String.join_append,
      join_escapeSegment (Text.splitAll_ne_nil '/' path), Text.intercalate_splitAll, hpath,
      List.map_append, String.join_append, String.append_assoc]
    rfl
  rw [continued, hfragment, hquery, withTail, cutTail_of_not_mem h.noFragment]
  dsimp only
  rw [hkept, text, text, hquery]
  rcases cutTail_cases '?' cs with ⟨hmark, hcut⟩ | ⟨path, query, hcs, hpathMark, hcut⟩
  · have hdots := h.noDots
    rw [hcut] at hdots
    rw [escapeTail, hcut]
    dsimp only
    rw [Option.map_none, base_eq, base_eq, hjoin cs hdots h.noBackslash]
    simp only [String.append_assoc]
    rfl
  · have hdots := h.noDots
    have hback : '\\' ∉ path := fun hmem => h.noBackslash (hcs ▸ List.mem_append_left _ hmem)
    rw [hcut] at hdots
    rw [escapeTail, hcut]
    dsimp only
    rw [Option.map_some, base_eq, base_eq, hjoin path hdots hback]
    simp only [String.append_assoc]
    rfl

end Texts

section Injective

theorem mark_not_mem_escapeSegment (path : List Char) : '?' ∉ (escapeSegment path).toList := by
  intro hmem
  rcases mem_encode hmem with hmem | ⟨-, hwritten⟩
  · exact absurd hmem (by decide)
  · exact absurd hwritten (by decide)

theorem cutTail_escapeTail (cs : List Char) : cutTail '?' (escapeTail cs).toList =
    ((escapeSegment (cutTail '?' cs).1).toList,
      (cutTail '?' cs).2.map fun query => (escapeQuery query).toList) := by
  rcases cutTail_cases '?' cs with ⟨-, hcut⟩ | ⟨path, query, -, -, hcut⟩
  · rw [escapeTail, hcut, cutTail_of_not_mem (mark_not_mem_escapeSegment cs)]
    rfl
  · have hlist : (escapeSegment path ++ "?" ++ escapeQuery query).toList =
        (escapeSegment path).toList ++ '?' :: (escapeQuery query).toList := by
      rw [String.toList_append, String.toList_append, List.append_assoc]
      rfl
    rw [escapeTail, hcut]
    dsimp only
    rw [hlist, cutTail, cutAt?_eq_some_iff.mpr ⟨rfl, mark_not_mem_escapeSegment path⟩]
    rfl

theorem escapeQuery_inj (hcs : '%' ∉ cs) (hds : '%' ∉ ds) (h : escapeQuery cs = escapeQuery ds) :
    cs = ds := by
  apply String.ofList_injective
  apply encode_inj _ _ h
  · exact .inr (by rwa [String.toList_ofList])
  · exact .inr (by rwa [String.toList_ofList])

theorem escapeSegment_inj (hcs : '%' ∉ cs) (hds : '%' ∉ ds)
    (h : escapeSegment cs = escapeSegment ds) : cs = ds := by
  apply String.ofList_injective
  apply encode_inj _ _ h
  · exact .inr (by rwa [String.toList_ofList])
  · exact .inr (by rwa [String.toList_ofList])

theorem escapeTail_inj (hcs : '%' ∉ cs) (hds : '%' ∉ ds) (h : escapeTail cs = escapeTail ds) :
    cs = ds := by
  have hcut : cutTail '?' (escapeTail cs).toList = cutTail '?' (escapeTail ds).toList := by rw [h]
  rw [cutTail_escapeTail, cutTail_escapeTail, Prod.mk.injEq, String.toList_inj] at hcut
  obtain ⟨hpath, hquery⟩ := hcut
  rcases cutTail_cases '?' cs with ⟨-, hcut⟩ | ⟨path, query, rfl, -, hcut⟩
  · rcases cutTail_cases '?' ds with ⟨-, hcut'⟩ | ⟨path', query', rfl, -, hcut'⟩
    · rw [hcut, hcut'] at hpath
      exact escapeSegment_inj hcs hds hpath
    · rw [hcut, hcut'] at hquery
      cases hquery
  · rcases cutTail_cases '?' ds with ⟨-, hcut'⟩ | ⟨path', query', rfl, -, hcut'⟩
    · rw [hcut, hcut'] at hquery
      cases hquery
    · rw [hcut, hcut'] at hpath hquery
      rw [List.mem_append, List.mem_cons, not_or, not_or] at hcs hds
      rw [Option.map_some, Option.map_some, Option.some_inj, String.toList_inj] at hquery
      rw [escapeSegment_inj hcs.1 hds.1 hpath, escapeQuery_inj hcs.2.2 hds.2.2 hquery]

/-- Without percent signs, what an address goes on with is told by its text. -/
theorem continued_text_inj (hfragment : u.fragment = none)
    (hpath : u.query = none → ∃ kept, u.path = kept ++ [""]) (hstays : Stays cs)
    (hstays' : Stays ds) (hcs : '%' ∉ cs) (hds : '%' ∉ ds)
    (h : (u.continued cs).text = (u.continued ds).text) : cs = ds := by
  cases hquery : u.query with
  | some query =>
    rw [text_continued_query hfragment hquery hstays.noFragment,
      text_continued_query hfragment hquery hstays'.noFragment, String.append_right_inj] at h
    exact escapeQuery_inj hcs hds h
  | none =>
    rw [text_continued_path hfragment hquery (hpath hquery) hstays,
      text_continued_path hfragment hquery (hpath hquery) hstays', String.append_right_inj] at h
    exact escapeTail_inj hcs hds h

end Injective

end VideoGateway.Url

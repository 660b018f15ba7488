import Mathlib.Data.List.DropRight
import VideoGateway.Proofs.Text.Cut
import VideoGateway.Proofs.Text.Percent
import VideoGateway.Proofs.Text.Split
import VideoGateway.Url.Reader

/-!
# Addresses that go on behind a slash

What follows a slash behind the host does not change what has been read before it: it goes on
with the path, or with the query or the fragment if they have begun. So the address of the whole
is that of the beginning, continued.
-/
namespace VideoGateway.Url

open Text (cutAt?_eq_some_iff cutAt?_eq_none_iff)

variable {cs ds : List Char} {mark : Char}

section Significant

/-- All characters of a text count where it ends an address. -/
def CountsAtEnd (cs : List Char) : Prop :=
  (∀ c ∈ cs, c ≠ '\t' ∧ c ≠ '\n' ∧ c ≠ '\r') ∧ ∀ c ∈ cs.getLast?, 0x20 < c.toNat

theorem countsAtEnd_nil : CountsAtEnd [] :=
  ⟨fun _ hc => absurd hc List.not_mem_nil, fun _ hc => absurd hc (by simp)⟩

/-- The characters that count at the beginning of an address. -/
def significantStart (cs : List Char) : List Char :=
  (cs.dropWhile fun c => c.toNat ≤ 0x20).filter fun c => !(c = '\t' || c = '\n' || c = '\r')

theorem dropBoth_append_slash {p : Char → Bool} (hslash : p '/' = false)
    (hlast : ∀ c ∈ ds.getLast?, p c = false) :
    Text.dropBoth p (cs ++ '/' :: ds) = cs.dropWhile p ++ '/' :: ds := by
  rw [Text.dropBoth, Text.dropWhile_append_cons hslash]
  apply List.rdropWhile_eq_self_iff.mpr
  intro hne
  rw [List.getLast_append_of_ne_nil _ (List.cons_ne_nil _ _)]
  have hend : ('/' :: ds).getLast (List.cons_ne_nil _ _) = ds.getLast?.getD '/' := by
    rw [← Option.some_inj, ← List.getLast?_eq_some_getLast, List.getLast?_cons]
  rw [hend]
  cases hds : ds.getLast? with
  | none => simp [hslash]
  | some c => simp [hlast c hds]

theorem significant_append (front tail : String) (htail : CountsAtEnd tail.toList) :
    significant (front ++ "/" ++ tail) =
      significantStart front.toList ++ '/' :: tail.toList := by
  have hlist : (front ++ "/" ++ tail).toList = front.toList ++ '/' :: tail.toList := by
    rw [String.toList_append, String.toList_append, List.append_assoc]
    rfl
  have hkept : tail.toList.filter (fun c => !(c = '\t' || c = '\n' || c = '\r')) = tail.toList := by
    rw [List.filter_eq_self]
    intro c hc
    obtain ⟨h₁, h₂, h₃⟩ := htail.1 c hc
    simp [h₁, h₂, h₃]
  rw [significant, hlist, dropBoth_append_slash (by decide) _, List.filter_append,
    List.filter_cons_of_pos (by decide), hkept]
  · rfl
  · intro c hc
    have := htail.2 c hc
    simpa using this

end Significant

section Scheme

/-- The scheme of a name before a colon, in small letters. -/
def schemeName? : List Char → Option String
  | [] => none
  | c :: cs =>
    if c.isAlpha && cs.all fun c => c.isAlphanum || ['+', '-', '.'].contains c then
      some (String.ofList ((c :: cs).map Text.lowerChar))
    else none

theorem scheme?_eq {name rest : List Char} (h : ':' ∉ name) :
    scheme? (name ++ ':' :: rest) = (schemeName? name).map fun scheme => (scheme, rest) := by
  rw [scheme?, cutAt?_eq_some_iff.mpr ⟨rfl, h⟩]
  cases name with
  | nil => rfl
  | cons c name =>
    dsimp only
    rw [schemeName?]
    split
    · rfl
    · rfl

theorem scheme?_eq_none (h : ':' ∉ cs) : scheme? cs = none := by
  rw [scheme?, cutAt?_eq_none_iff.mpr h]

theorem schemeName?_eq_none {name : List Char} (h : '/' ∈ name) : schemeName? name = none := by
  cases name with
  | nil => rfl
  | cons c name =>
    rw [schemeName?, if_neg]
    rw [Bool.and_eq_true, List.all_eq_true]
    rintro ⟨hfirst, hothers⟩
    rcases List.mem_cons.mp h with rfl | h
    · exact absurd hfirst (by decide)
    · exact absurd (hothers '/' h) (by decide)

/-- A scheme is found before a slash or not at all. -/
theorem scheme?_append (cs : List Char) :
    (∃ name rest scheme, cs = name ++ ':' :: rest ∧ ':' ∉ name ∧
      ∀ ds, scheme? (cs ++ '/' :: ds) = some (scheme, rest ++ '/' :: ds)) ∨
    ∀ ds, scheme? (cs ++ '/' :: ds) = none := by
  by_cases hcolon : ':' ∈ cs
  · obtain ⟨name, rest, rfl, hname⟩ := List.eq_append_cons_of_mem hcolon
    have hscheme : ∀ ds, scheme? (name ++ ':' :: rest ++ '/' :: ds) =
        (schemeName? name).map fun scheme => (scheme, rest ++ '/' :: ds) := by
      intro ds
      rw [List.append_assoc, List.cons_append, scheme?_eq hname]
    cases hnamed : schemeName? name with
    | none =>
      rw [hnamed] at hscheme
      exact .inr hscheme
    | some scheme =>
      rw [hnamed] at hscheme
      exact .inl ⟨name, rest, scheme, rfl, hname, hscheme⟩
  · apply Or.inr
    intro ds
    by_cases hmem : ':' ∈ ds
    · obtain ⟨name, rest, rfl, hname⟩ := List.eq_append_cons_of_mem hmem
      have hwhole : ':' ∉ cs ++ '/' :: name := by simp [hcolon, hname]
      have hslash : '/' ∈ cs ++ '/' :: name := List.mem_append_right _ List.mem_cons_self
      rw [← List.cons_append, ← List.append_assoc, scheme?_eq hwhole, schemeName?_eq_none hslash]
      rfl
    · apply scheme?_eq_none
      simp [hcolon, hmem]

end Scheme

section Tail

theorem cutTail_append_of_mem (h : mark ∈ cs) (ds : List Char) :
    ∃ front back, cutTail mark cs = (front, some back) ∧
      cutTail mark (cs ++ ds) = (front, some (back ++ ds)) := by
  obtain ⟨front, back, rfl, hfront⟩ := List.eq_append_cons_of_mem h
  refine ⟨front, back, ?_, ?_⟩
  · rw [cutTail, cutAt?_eq_some_iff.mpr ⟨rfl, hfront⟩]
  · rw [List.append_assoc, List.cons_append, cutTail, cutAt?_eq_some_iff.mpr ⟨rfl, hfront⟩]

theorem cutTail_of_not_mem (h : mark ∉ cs) : cutTail mark cs = (cs, none) := by
  rw [cutTail, cutAt?_eq_none_iff.mpr h]

theorem cutTail_append_of_not_mem (h : mark ∉ cs) (ds : List Char) :
    cutTail mark (cs ++ ds) = (cs ++ (cutTail mark ds).1, (cutTail mark ds).2) := by
  cases hcut : Text.cutAt? mark ds with
  | none =>
    have hnone : mark ∉ cs ++ ds := by
      rw [List.mem_append]
      exact not_or.mpr ⟨h, cutAt?_eq_none_iff.mp hcut⟩
    rw [cutTail_of_not_mem hnone, cutTail, hcut]
  | some cut =>
    obtain ⟨front, back⟩ := cut
    obtain ⟨rfl, hfront⟩ := cutAt?_eq_some_iff.mp hcut
    have hmark : mark ∉ cs ++ front := by
      rw [List.mem_append]
      exact not_or.mpr ⟨h, hfront⟩
    have hwhole : Text.cutAt? mark (cs ++ (front ++ mark :: back)) = some (cs ++ front, back) :=
      cutAt?_eq_some_iff.mpr ⟨by rw [List.append_assoc], hmark⟩
    rw [cutTail, cutTail, hcut, hwhole]

theorem pushSegments_cons_cons (done : List String) (seg next : List Char)
    (rest : List (List Char)) : pushSegments done (seg :: next :: rest) =
      pushSegments (pushSegment false done seg) (next :: rest) :=
  rfl

theorem pushSegments_append (done : List String) (segs : List (List Char)) {more : List (List Char)}
    (hmore : more ≠ []) : pushSegments done (segs ++ more) =
      pushSegments (segs.foldl (pushSegment false) done) more := by
  induction segs generalizing done with
  | nil => rfl
  | cons seg segs ih =>
    have hne : segs ++ more ≠ [] := fun hnil => hmore (List.append_eq_nil_iff.mp hnil).2
    rw [List.foldl_cons, ← ih, List.cons_append]
    cases hsegs : segs ++ more with
    | nil => exact absurd hsegs hne
    | cons next rest => rw [pushSegments_cons_cons]

theorem segments_append_slash (cs ds : List Char) :
    segments (cs ++ '/' :: ds) = segments cs ++ segments ds := by
  rw [segments, List.map_append, List.map_cons, if_neg (by decide), Text.splitAll_append_cons]
  rfl

theorem segments_ne_nil (cs : List Char) : segments cs ≠ [] :=
  Text.splitAll_ne_nil '/' _

/-- The address as it goes on behind a slash at its end. -/
def continued (u : Url) (cs : List Char) : Url :=
  match u.fragment with
  | some fragment => { u with fragment := some (fragment ++ escapeFragment cs) }
  | none =>
    match u.query with
    | some query =>
      let (cs, fragment) := cutTail '#' cs
      { u with
        query := some (query ++ escapeQuery cs)
        fragment := fragment.map escapeFragment }
    | none => u.withTail u.path.reverse.tail cs

theorem escapeFragment_append (cs ds : List Char) :
    escapeFragment (cs ++ ds) = escapeFragment cs ++ escapeFragment ds := by
  rw [escapeFragment, String.ofList_append, Text.Percent.encode_append]
  rfl

theorem escapeQuery_append (cs ds : List Char) :
    escapeQuery (cs ++ ds) = escapeQuery cs ++ escapeQuery ds := by
  rw [escapeQuery, String.ofList_append, Text.Percent.encode_append]
  rfl

theorem pushSegments_segments_append (h : cs = [] ∨ ∃ front, cs = front ++ ['/'])
    (ds : List Char) : pushSegments [] (segments (cs ++ ds)) =
      pushSegments (pushSegments [] (segments cs)).tail (segments ds) := by
  rcases h with rfl | ⟨front, rfl⟩
  · rfl
  · rw [List.append_assoc, List.singleton_append, segments_append_slash, segments_append_slash,
      pushSegments_append [] _ (segments_ne_nil ds), pushSegments_append [] _ (segments_ne_nil [])]
    rfl

theorem withTail_append (u : Url) (h : cs = [] ∨ ∃ front, cs = front ++ ['/']) (ds : List Char) :
    u.withTail [] (cs ++ ds) = (u.withTail [] cs).continued ds := by
  by_cases hfragment : '#' ∈ cs
  · obtain ⟨front, back, hcut, hcutWhole⟩ := cutTail_append_of_mem hfragment ds
    rw [withTail, withTail, hcut, hcutWhole]
    dsimp only
    rw [Option.map_some, escapeFragment_append]
    rfl
  · by_cases hquery : '?' ∈ cs
    · obtain ⟨front, back, hcut, hcutWhole⟩ := cutTail_append_of_mem hquery (cutTail '#' ds).1
      rw [withTail, withTail, cutTail_append_of_not_mem hfragment, cutTail_of_not_mem hfragment]
      dsimp only
      rw [hcut, hcutWhole]
      dsimp only
      rw [Option.map_some, escapeQuery_append]
      rfl
    · rw [withTail, withTail, cutTail_append_of_not_mem hfragment, cutTail_of_not_mem hfragment]
      dsimp only
      rw [cutTail_append_of_not_mem hquery, cutTail_of_not_mem hquery]
      dsimp only
      change _ = withTail _ (List.reverse (List.reverse _)).tail ds
      rw [pushSegments_segments_append h, List.reverse_reverse]
      rfl

end Tail

section Reading

variable {front tail : String}

/-- The address of a host, without anything behind it. -/
def ofAuthority? (scheme : String) (authority : List Char) : Option Url :=
  let (credentials, place) :=
    match Text.cutAt? '@' authority.reverse with
    | none => ([], authority)
    | some (place, credentials) => (credentials.reverse, place.reverse)
  let (user, password) := cutTail ':' credentials
  let (hostText, portText) := splitHost false place
  match host? hostText, port? scheme portText with
  | some host, some port =>
    let escape (cs : List Char) := Text.Percent.encode isEscapedInUser (String.ofList cs)
    some ⟨scheme, escape user, escape (password.getD []), host, port, [], none, none⟩
  | _, _ => none

theorem afterSlashes?_eq (scheme : String) (cs : List Char) : afterSlashes? scheme cs =
    (ofAuthority? scheme (cs.takeWhile fun c => !endsAuthority c)).map fun u =>
      u.withTail [] (dropSlash (cs.dropWhile fun c => !endsAuthority c)) := by
  unfold afterSlashes? ofAuthority?
  dsimp only
  cases Text.cutAt? '@' (cs.takeWhile fun c => !endsAuthority c).reverse
  all_goals
    dsimp only
    cases host? _ with
    | none => rfl
    | some host =>
      cases port? scheme _ with
      | none => rfl
      | some port => rfl

theorem dropSlash_sublist (cs : List Char) : (dropSlash cs).Sublist cs := by
  cases cs with
  | nil => exact List.Sublist.refl _
  | cons c cs =>
    rw [dropSlash]
    split
    · exact List.sublist_cons_self c cs
    · exact List.Sublist.refl _

/-- Behind a slash there is nothing but the end of an address. -/
theorem exists_afterSlashes?_append (scheme : String) (cs : List Char) :
    ∃ (bare : Option Url) (start : List Char), (start = [] ∨ ∃ front, start = front ++ ['/']) ∧
      start.Sublist (cs ++ ['/']) ∧
      ∀ ds, afterSlashes? scheme (cs ++ '/' :: ds) = bare.map (·.withTail [] (start ++ ds)) := by
  have hends : (!endsAuthority '/') = false := by decide
  refine ⟨ofAuthority? scheme (cs.takeWhile fun c => !endsAuthority c),
    dropSlash ((cs.dropWhile fun c => !endsAuthority c) ++ ['/']), ?_, ?_, ?_⟩
  · cases cs.dropWhile fun c => !endsAuthority c with
    | nil => exact .inl rfl
    | cons c front =>
      apply Or.inr
      rw [List.cons_append, dropSlash]
      split
      · exact ⟨front, rfl⟩
      · exact ⟨c :: front, rfl⟩
  · exact (dropSlash_sublist _).trans ((List.dropWhile_sublist _).append_right _)
  · intro ds
    rw [afterSlashes?_eq, Text.takeWhile_append_cons hends, Text.dropWhile_append_cons hends]
    cases cs.dropWhile fun c => !endsAuthority c with
    | nil => rfl
    | cons c front =>
      rw [List.cons_append, List.cons_append, dropSlash, dropSlash]
      split
      · rw [List.append_assoc]
        rfl
      · rw [List.cons_append, List.append_assoc]
        rfl

/-- The part of an address that names the host is not empty. -/
def Hosted (front : String) : Prop :=
  ∀ name rest, significantStart front.toList = name ++ ':' :: rest → ':' ∉ name →
    ∃ c ∈ rest, isSlash c = false

theorem dropWhile_isSlash_append (h : ∃ c ∈ cs, isSlash c = false) (ds : List Char) :
    (cs ++ ds).dropWhile isSlash = cs.dropWhile isSlash ++ ds := by
  obtain ⟨c, hc, hslash⟩ := h
  rw [List.dropWhile_append, if_neg]
  intro hnone
  have hall := List.dropWhile_eq_nil_iff.mp (List.isEmpty_iff.mp hnone)
  rw [hall c hc] at hslash
  cases hslash

/-- Behind a slash after the host, there is nothing but the end of an address. -/
theorem exists_parse?_append (hfront : Hosted front) : ∃ (bare : Option Url) (start : List Char),
    (start = [] ∨ ∃ front, start = front ++ ['/']) ∧ start.Sublist (front.toList ++ ['/']) ∧
    ∀ tail : String, CountsAtEnd tail.toList →
      parse? (front ++ "/" ++ tail) = bare.map (·.withTail [] (start ++ tail.toList)) := by
  rcases scheme?_append (significantStart front.toList) with
    ⟨name, rest, scheme, hstart, hname, hscheme⟩ | hnone
  · have hslashes := dropWhile_isSlash_append (hfront name rest hstart hname)
    obtain ⟨bare, start, hslash, hsub, hread⟩ :=
      exists_afterSlashes?_append scheme (rest.dropWhile isSlash)
    have hrest : (rest.dropWhile isSlash).Sublist front.toList := by
      have hfrom : (name ++ ':' :: rest).Sublist front.toList := by
        rw [← hstart]
        exact List.filter_sublist.trans (List.dropWhile_sublist _)
      exact (List.dropWhile_sublist _).trans
        (((List.sublist_cons_self _ _).trans (List.sublist_append_right _ _)).trans hfrom)
    by_cases hknown : (impliedPorts.lookup scheme).isSome = true
    · refine ⟨bare, start, hslash, hsub.trans (hrest.append_right _), ?_⟩
      intro tail htail
      rw [parse?, significant_append front tail htail, hscheme]
      dsimp only
      rw [if_pos hknown, hslashes, hread]
    · refine ⟨none, [], .inl rfl, List.nil_sublist _, ?_⟩
      intro tail htail
      rw [parse?, significant_append front tail htail, hscheme]
      dsimp only
      rw [if_neg hknown]
      rfl
  · refine ⟨none, [], .inl rfl, List.nil_sublist _, ?_⟩
    intro tail htail
    rw [parse?, significant_append front tail htail, hnone]
    rfl

/-- Behind a slash after the host, an address goes on with what has been read. -/
theorem parse?_append (hfront : Hosted front) (htail : CountsAtEnd tail.toList) :
    parse? (front ++ "/" ++ tail) = (parse? (front ++ "/")).map (·.continued tail.toList) := by
  obtain ⟨bare, start, hslash, -, hread⟩ := exists_parse?_append hfront
  have hbegin := hread "" countsAtEnd_nil
  rw [String.append_empty, String.toList_empty, List.append_nil] at hbegin
  rw [hread tail htail, hbegin]
  cases bare with
  | none => rfl
  | some bare => exact congrArg some (bare.withTail_append hslash tail.toList)

/-- Without marks for them, an address has no fragment and no query. The slash at its end begins
an empty segment, unless there is a query. -/
theorem parse?_slash {u : Url} (hfront : Hosted front) (hfragment : '#' ∉ front.toList)
    (h : parse? (front ++ "/") = some u) : u.fragment = none ∧
      ('?' ∉ front.toList → u.query = none) ∧
      (u.query = none → ∃ kept, u.path = kept ++ [""]) := by
  obtain ⟨bare, start, hslash, hsub, hread⟩ := exists_parse?_append hfront
  have hbegin := hread "" countsAtEnd_nil
  rw [String.append_empty, String.toList_empty, List.append_nil, h] at hbegin
  have hnot : ∀ {c}, c ∉ front.toList → c ≠ '/' → c ∉ start := by
    intro c hc hne hmem
    rcases List.mem_append.mp (hsub.subset hmem) with hmem | hmem
    · exact hc hmem
    · exact hne (List.mem_singleton.mp hmem)
  cases bare with
  | none => cases hbegin
  | some bare =>
    obtain rfl : u = bare.withTail [] start := Option.some.inj hbegin
    rw [withTail, cutTail_of_not_mem (hnot hfragment (by decide))]
    refine ⟨rfl, ?_, ?_⟩
    · intro hquery
      dsimp only
      rw [cutTail_of_not_mem (hnot hquery (by decide))]
      rfl
    · intro hquery
      dsimp only at hquery ⊢
      have hmark : '?' ∉ start := by
        intro hmark
        obtain ⟨path, query, hcut, -⟩ := cutTail_append_of_mem hmark []
        rw [hcut] at hquery
        cases hquery
      rw [cutTail_of_not_mem hmark]
      rcases hslash with rfl | ⟨kept, rfl⟩
      · exact ⟨[], rfl⟩
      · refine ⟨((segments kept).foldl (pushSegment false) []).reverse, ?_⟩
        dsimp only
        rw [segments_append_slash, pushSegments_append [] _ (segments_ne_nil []),
          ← List.reverse_cons]
        rfl

end Reading

section Hosts

variable {front : String}

/-- An address that can be read has a host. -/
theorem hosted_of_parse? {u : Url} (h : parse? (front ++ "/") = some u) : Hosted front := by
  intro name rest hstart hname
  apply Classical.byContradiction
  intro hnone
  have hslashes : (rest ++ ['/']).dropWhile isSlash = [] := by
    rw [List.dropWhile_eq_nil_iff]
    intro c hc
    rcases List.mem_append.mp hc with hc | hc
    · rw [← Bool.not_eq_false]
      intro hslash
      exact hnone ⟨c, hc, hslash⟩
    · rw [List.mem_singleton.mp hc]
      rfl
  have hbegin := significant_append front "" countsAtEnd_nil
  rw [String.append_empty, hstart, List.append_assoc, List.cons_append] at hbegin
  rw [parse?, hbegin, scheme?_eq hname] at h
  cases hscheme : schemeName? name with
  | none =>
    rw [hscheme] at h
    cases h
  | some scheme =>
    rw [hscheme, Option.map_some] at h
    dsimp only at h
    rw [String.toList_empty, hslashes] at h
    split at h
    · cases h
    · cases h

/-- So has one that does not end with a slash, a colon or a blank. -/
theorem hosted_append {c : Char} (hslash : isSlash c = false) (hcolon : c ≠ ':')
    (hblank : 0x20 < c.toNat) (front : String) : Hosted (front ++ String.singleton c) := by
  intro name rest hstart hname
  have hkept : significantStart (front ++ String.singleton c).toList =
      significantStart front.toList ++ [c] := by
    have hplain : (!(c = '\t' || c = '\n' || c = '\r')) = true := by
      simp only [Bool.not_eq_true', Bool.or_eq_false_iff, decide_eq_false_iff_not]
      refine ⟨⟨?_, ?_⟩, ?_⟩
      · rintro rfl
        exact absurd hblank (by decide)
      · rintro rfl
        exact absurd hblank (by decide)
      · rintro rfl
        exact absurd hblank (by decide)
    have hone : [c].filter (fun c => !(c = '\t' || c = '\n' || c = '\r')) = [c] :=
      List.filter_cons_of_pos hplain
    have hstop : decide (c.toNat ≤ 0x20) = false := by simpa using hblank
    rw [significantStart, significantStart, String.toList_append, String.toList_singleton,
      Text.dropWhile_append_cons hstop, List.filter_append, hone]
  rw [hkept] at hstart
  rcases List.eq_nil_or_concat rest with rfl | ⟨rest, d, rfl⟩
  · exact absurd (List.append_inj_right' hstart rfl) (by simpa using hcolon)
  · rw [List.concat_eq_append] at hstart ⊢
    refine ⟨d, List.mem_append_right _ (List.mem_singleton.mpr rfl), ?_⟩
    rw [← List.cons_append, ← List.append_assoc] at hstart
    have hd := List.append_inj_right' hstart rfl
    rwa [← (List.cons.inj hd).1]

end Hosts

end VideoGateway.Url

import Mathlib.Data.List.DropRight
import Mathlib.Data.List.TakeWhile
import VideoGateway.Proofs.Text.Cut
import VideoGateway.Storage.ObjectPath

/-!
# What the extension of a video is taken from

An address leads to a host and has a path there, behind which a query or a fragment may stand.
The extension is that of the name at the end of the path, and no other part of the address has an
influence on it: neither the host nor a folder, nor what stands behind the path. Where that name
has no extension, the content type decides.
-/
namespace VideoGateway.VideoKey

section Places

variable {s url tail : String}

/-- A query or a fragment, with its mark. -/
def IsTail (tail : String) : Prop :=
  tail.toList.head? = some '?' ∨ tail.toList.head? = some '#'

instance (tail : String) : Decidable (IsTail tail) :=
  inferInstanceAs (Decidable (_ ∨ _))

/-- No query and no fragment begins in the text. -/
structure Tailless (s : String) : Prop where
  noQuery : '?' ∉ s.toList
  noFragment : '#' ∉ s.toList

def withoutTail (url : String) : List Char :=
  url.toList.takeWhile fun c => c != '?' && c != '#'

theorem tailless_iff : Tailless s ↔ ∀ c ∈ s.toList, (c != '?' && c != '#') = true := by
  simp only [Bool.and_eq_true, bne_iff_ne]
  constructor
  · rintro ⟨hquery, hfragment⟩ c hc
    exact ⟨ne_of_mem_of_not_mem hc hquery, ne_of_mem_of_not_mem hc hfragment⟩
  · intro h
    exact ⟨fun hmem => (h _ hmem).1 rfl, fun hmem => (h _ hmem).2 rfl⟩

theorem tailless_withoutTail (url : String) : Tailless (String.ofList (withoutTail url)) := by
  rw [tailless_iff, String.toList_ofList]
  intro c hc
  exact List.mem_takeWhile_imp (p := fun c => c != '?' && c != '#') hc

theorem withoutTail_of_tailless (h : Tailless s) : withoutTail s = s.toList :=
  List.takeWhile_eq_self_iff.mpr (tailless_iff.mp h)

theorem withoutTail_append (h : Tailless s) (t : String) :
    withoutTail (s ++ t) = s.toList ++ withoutTail t := by
  rw [withoutTail, String.toList_append, List.takeWhile_append_of_pos (tailless_iff.mp h),
    withoutTail]

theorem withoutTail_tail (h : IsTail tail) : withoutTail tail = [] := by
  rw [withoutTail]
  rcases h with h | h
  · obtain ⟨rest, hrest⟩ := List.head?_eq_some_iff.mp h
    rw [hrest, List.takeWhile_cons_of_neg (by decide)]
  · obtain ⟨rest, hrest⟩ := List.head?_eq_some_iff.mp h
    rw [hrest, List.takeWhile_cons_of_neg (by decide)]

theorem withoutTail_append_tail (url : String) (h : IsTail tail) :
    withoutTail (url ++ tail) = withoutTail url := by
  have htail := withoutTail_tail h
  rw [withoutTail] at htail
  rw [withoutTail, String.toList_append, List.takeWhile_append, htail, List.append_nil, withoutTail]
  split
  · next hall => exact ((List.takeWhile_prefix _).eq_of_length hall).symm
  · rfl

theorem exists_tail (url : String) :
    ∃ tail, url = String.ofList (withoutTail url) ++ tail ∧ (tail = "" ∨ IsTail tail) := by
  refine ⟨String.ofList (url.toList.dropWhile fun c => c != '?' && c != '#'), ?_, ?_⟩
  · rw [← String.ofList_append, withoutTail, List.takeWhile_append_dropWhile, String.ofList_toList]
  · have hhead := List.head?_dropWhile_not (fun c => c != '?' && c != '#') url.toList
    rw [IsTail, String.toList_ofList, String.ofList_eq_empty_iff]
    generalize (url.toList.dropWhile fun c => c != '?' && c != '#') = rest at hhead ⊢
    cases rest with
    | nil => exact .inl rfl
    | cons c rest =>
      have hc : (c != '?' && c != '#') = false := hhead
      rw [Bool.and_eq_false_iff, bne_eq_false_iff_eq, bne_eq_false_iff_eq] at hc
      exact .inr (hc.imp (congrArg some) (congrArg some))

end Places

section Paths

variable {url scheme authority path tail s : String}

/-- Neither does a tail begin in the text, nor does a scheme end there. All schemes are such texts,
since they have no colons. -/
structure Undivided (s : String) : Prop extends Tailless s where
  noMark : Text.hasPart "://" s = false

/-- Which part of an address is its path. -/
inductive HasPath : String → String → Prop
  /-- Without a scheme, all of the address is its path. -/
  | whole {path : String} (hpath : Undivided path) : HasPath path path
  | bare {scheme authority : String} (hscheme : Undivided scheme) (hauthority : Tailless authority)
      (hslash : '/' ∉ authority.toList) : HasPath (scheme ++ "://" ++ authority) ""
  | hosted {scheme authority path : String} (hscheme : Undivided scheme)
      (hauthority : Tailless authority) (hslash : '/' ∉ authority.toList)
      (hpath : Tailless path) : HasPath (scheme ++ "://" ++ authority ++ "/" ++ path) path
  | tailed {address path tail : String} (haddress : HasPath address path) (htail : IsTail tail) :
      HasPath (address ++ tail) path

/-- The path of an address as it is found. -/
def pathOf (url : String) : List Char :=
  match Text.afterFirst? "://".toList (withoutTail url) with
  | none => withoutTail url
  | some rest => (rest.dropWhile (· != '/')).drop 1

theorem fileName_eq (url : String) : fileName url = (pathOf url).rtakeWhile (· != '/') := rfl

theorem Undivided.lacksMark (h : Undivided s) : ¬ "://".toList <:+: s.toList :=
  Text.hasPart_eq_false_iff.mp h.noMark

theorem lacksMark_append (h : ¬ "://".toList <:+: s.toList) :
    ¬ "://".toList <:+: s.toList ++ "://".toList.dropLast := by
  rw [← List.reverse_infix] at h ⊢
  have hends : (s.toList ++ "://".toList.dropLast).reverse = '/' :: ':' :: s.toList.reverse :=
    List.reverse_append
  rw [hends, List.infix_cons_iff, List.infix_cons_iff]
  rintro (hbegins | hbegins | hwithin)
  · exact absurd (List.cons_prefix_cons.mp (List.cons_prefix_cons.mp hbegins).2).1 (by decide)
  · exact absurd (List.cons_prefix_cons.mp hbegins).1 (by decide)
  · exact h hwithin

theorem pathOf_of_undivided (h : Undivided path) : pathOf path = path.toList := by
  have hurl := withoutTail_of_tailless h.toTailless
  rw [pathOf, hurl, Text.afterFirst?_eq_none_iff.mpr h.lacksMark]

theorem pathOf_behind_scheme (h : Undivided scheme) (rest : String) :
    pathOf (scheme ++ "://" ++ rest) = ((withoutTail rest).dropWhile (· != '/')).drop 1 := by
  have hmark : Tailless "://" := ⟨by decide, by decide⟩
  have hurl : withoutTail (scheme ++ "://" ++ rest) =
      scheme.toList ++ "://".toList ++ withoutTail rest := by
    rw [String.append_assoc, withoutTail_append h.toTailless, withoutTail_append hmark,
      List.append_assoc]
  have hrest : Text.afterFirst? "://".toList (withoutTail (scheme ++ "://" ++ rest)) =
      some (withoutTail rest) := by
    apply (Text.afterFirst?_eq_some_iff (by decide)).mpr
    exact ⟨scheme.toList, hurl, lacksMark_append h.lacksMark⟩
  rw [pathOf, hrest]

theorem bne_slash {cs : List Char} (h : '/' ∉ cs) : ∀ c ∈ cs, (c != '/') = true :=
  fun _ hc => bne_iff_ne.mpr (ne_of_mem_of_not_mem hc h)

theorem dropWhile_of_slash_not_mem {cs : List Char} (h : '/' ∉ cs) :
    cs.dropWhile (· != '/') = [] :=
  List.dropWhile_eq_nil_iff.mpr (bne_slash h)

theorem pathOf_bare (h : Undivided scheme) (hslash : '/' ∉ authority.toList) :
    pathOf (scheme ++ "://" ++ authority) = [] := by
  have hnone : '/' ∉ withoutTail authority :=
    fun hmem => hslash ((List.takeWhile_prefix _).subset hmem)
  rw [pathOf_behind_scheme h, dropWhile_of_slash_not_mem hnone, List.drop_nil]

theorem pathOf_hosted (h : Undivided scheme) (hauthority : Tailless authority)
    (hslash : '/' ∉ authority.toList) (hpath : Tailless path) :
    pathOf (scheme ++ "://" ++ authority ++ "/" ++ path) = path.toList := by
  have hmark : Tailless "/" := ⟨by decide, by decide⟩
  have hrest : withoutTail (authority ++ ("/" ++ path)) =
      authority.toList ++ '/' :: path.toList := by
    rw [withoutTail_append hauthority, withoutTail_append hmark, withoutTail_of_tailless hpath]
    rfl
  rw [String.append_assoc, String.append_assoc, pathOf_behind_scheme h, hrest,
    Text.dropWhile_append_cons (by decide), dropWhile_of_slash_not_mem hslash, List.nil_append,
    List.drop_one, List.tail_cons]

theorem pathOf_append_tail (url : String) (h : IsTail tail) :
    pathOf (url ++ tail) = pathOf url := by
  rw [pathOf, withoutTail_append_tail url h, pathOf]

theorem HasPath.pathOf_eq (h : HasPath url path) : pathOf url = path.toList := by
  induction h with
  | whole hpath => exact pathOf_of_undivided hpath
  | bare hscheme hauthority hslash => exact pathOf_bare hscheme hslash
  | hosted hscheme hauthority hslash hpath => exact pathOf_hosted hscheme hauthority hslash hpath
  | @tailed address path tail haddress htail ih =>
    rw [pathOf_append_tail address htail, ih]

theorem HasPath.unique {path' : String} (h : HasPath url path) (h' : HasPath url path') :
    path = path' := by
  rw [← String.toList_inj, ← h.pathOf_eq, h'.pathOf_eq]

theorem HasPath.tailless (h : HasPath url path) : Tailless path := by
  induction h with
  | whole hpath => exact hpath.toTailless
  | bare hscheme hauthority hslash => exact ⟨List.not_mem_nil, List.not_mem_nil⟩
  | hosted hscheme hauthority hslash hpath => exact hpath
  | tailed haddress htail ih => exact ih

theorem Tailless.of_append {t : String} (h : Tailless (s ++ t)) : Tailless s ∧ Tailless t := by
  obtain ⟨hquery, hfragment⟩ := h
  rw [String.toList_append, List.mem_append, not_or] at hquery hfragment
  exact ⟨⟨hquery.1, hfragment.1⟩, ⟨hquery.2, hfragment.2⟩⟩

theorem exists_hasPath_of_tailless (h : Tailless url) : ∃ path, HasPath url path := by
  cases hafter : Text.afterFirst? "://".toList url.toList with
  | none =>
    have hmark := Text.hasPart_eq_false_iff.mpr (Text.afterFirst?_eq_none_iff.mp hafter)
    exact ⟨url, .whole ⟨h, hmark⟩⟩
  | some after =>
    obtain ⟨front, hcs, hfront⟩ := (Text.afterFirst?_eq_some_iff (by decide)).mp hafter
    have hurl : url = String.ofList front ++ "://" ++ String.ofList after := by
      apply Text.eq_append_ofList
      rw [hcs, String.toList_append, String.toList_ofList (l := front)]
    rw [hurl] at h ⊢
    -- The first mark ends the scheme, and the first slash behind it ends the authority.
    have hmark : Text.hasPart "://" (String.ofList front) = false := by
      rw [Text.hasPart_eq_false_iff, String.toList_ofList (l := front)]
      exact fun hwithin => hfront (hwithin.trans (List.prefix_append front _).isInfix)
    have hscheme : Undivided (String.ofList front) := ⟨h.of_append.1.of_append.1, hmark⟩
    have hrest : Tailless (String.ofList after) := h.of_append.2
    cases hcut : Text.splitOnce? '/' (String.ofList after) with
    | none => exact ⟨"", .bare hscheme hrest (Text.splitOnce?_eq_none_iff.mp hcut)⟩
    | some cut =>
      obtain ⟨authority, path⟩ := cut
      obtain ⟨heq, hslash⟩ := Text.splitOnce?_eq_some_iff.mp hcut
      rw [heq] at hrest ⊢
      rw [← String.append_assoc, ← String.append_assoc]
      exact ⟨path, .hosted hscheme hrest.of_append.1.of_append.1 hslash hrest.of_append.2⟩

theorem exists_hasPath (url : String) : ∃ path, HasPath url path := by
  obtain ⟨tail, hurl, hnone | htail⟩ := exists_tail url
  · rw [hnone, String.append_empty] at hurl
    exact exists_hasPath_of_tailless (hurl ▸ tailless_withoutTail url)
  · obtain ⟨path, hpath⟩ := exists_hasPath_of_tailless (tailless_withoutTail url)
    exact ⟨path, hurl ▸ hpath.tailed htail⟩

end Paths

section Names

variable {url path suffix name ext : String}

/-- What follows the dot of an extension. -/
structure IsSuffix (suffix : String) : Prop extends Tailless suffix where
  nonempty : suffix ≠ ""
  noDot : '.' ∉ suffix.toList
  noSlash : '/' ∉ suffix.toList

/-- The name at the end of the path is something, a dot and the suffix. -/
inductive EndsIn : String → String → Prop
  | name {stem suffix : String} (hstem : stem ≠ "") (hslash : '/' ∉ stem.toList)
      (hsuffix : IsSuffix suffix) : EndsIn (stem ++ "." ++ suffix) suffix
  | inside {path suffix : String} (folder : String) (hpath : EndsIn path suffix) :
      EndsIn (folder ++ "/" ++ path) suffix

def ofContentType (contentType : String) : String :=
  if Text.hasPart "webm" (Text.lower contentType) then ".webm" else ".mp4"

theorem extension_eq (url contentType : String) :
    extension url contentType = (extension? (fileName url)).getD (ofContentType contentType) := by
  unfold extension ofContentType
  split
  · next extension hsome => rw [hsome, Option.getD_some]
  · next hnone => rw [hnone, Option.getD_none]

theorem extension?_eq_some_iff {name : List Char} : extension? name = some ext ↔
    ∃ stem suffix, name = stem ++ '.' :: suffix ∧ stem ≠ [] ∧ suffix ≠ [] ∧ '.' ∉ suffix ∧
      ext = String.ofList ('.' :: suffix) := by
  unfold extension?
  constructor
  · intro h
    split at h
    · cases h
    · next back front hcut =>
      obtain ⟨rfl, hdot⟩ := Text.cutAt?_reverse_eq_some_iff.mp hcut
      split at h
      · cases h
      · next hfull =>
        rw [Bool.or_eq_true, List.isEmpty_iff, List.isEmpty_iff, not_or] at hfull
        refine ⟨front.reverse, back.reverse, rfl, ?_, ?_, ?_, (Option.some.inj h).symm⟩
        · rw [ne_eq, List.reverse_eq_nil_iff]
          exact hfull.2
        · rw [ne_eq, List.reverse_eq_nil_iff]
          exact hfull.1
        · rwa [List.mem_reverse]
  · rintro ⟨stem, suffix, rfl, hstem, hsuffix, hdot, rfl⟩
    rw [Text.cutAt?_reverse hdot]
    simp [hstem, hsuffix]

theorem rtakeWhile_of_slash_not_mem {cs : List Char} (h : '/' ∉ cs) :
    cs.rtakeWhile (· != '/') = cs :=
  List.rtakeWhile_eq_self_iff.mpr (bne_slash h)

theorem rtakeWhile_inside (folder path : String) :
    (folder ++ "/" ++ path).toList.rtakeWhile (· != '/') = path.toList.rtakeWhile (· != '/') := by
  have hlist : (folder ++ "/" ++ path).toList.reverse =
      path.toList.reverse ++ '/' :: folder.toList.reverse := by
    simp
  rw [List.rtakeWhile, hlist, Text.takeWhile_append_cons (by decide)]
  rfl

theorem EndsIn.isSuffix (h : EndsIn path suffix) : IsSuffix suffix := by
  induction h with
  | name hstem hslash hsuffix => exact hsuffix
  | inside folder hpath ih => exact ih

theorem EndsIn.extension?_eq (h : EndsIn path suffix) :
    extension? (path.toList.rtakeWhile (· != '/')) = some ("." ++ suffix) := by
  induction h with
  | @name stem suffix hstem hslash hsuffix =>
    have hname : (stem ++ "." ++ suffix).toList = stem.toList ++ '.' :: suffix.toList := by
      rw [String.toList_append, String.toList_append, List.append_assoc]
      rfl
    have hplain : '/' ∉ stem.toList ++ '.' :: suffix.toList := by
      rw [List.mem_append, List.mem_cons, not_or, not_or]
      exact ⟨hslash, by decide, hsuffix.noSlash⟩
    rw [hname, rtakeWhile_of_slash_not_mem hplain, extension?_eq_some_iff]
    refine ⟨stem.toList, suffix.toList, rfl, ?_, ?_, hsuffix.noDot, ?_⟩
    · exact mt String.toList_eq_nil_iff.mp hstem
    · exact mt String.toList_eq_nil_iff.mp hsuffix.nonempty
    · rw [← String.toList_inj, String.toList_append]
      exact String.toList_ofList.symm
  | inside folder hpath ih => rw [rtakeWhile_inside, ih]

theorem exists_folder (h : '/' ∈ path.toList) : ∃ folder name : String,
    path = folder ++ "/" ++ name ∧ '/' ∉ name.toList := by
  obtain ⟨back, front, hback, hslash⟩ := List.eq_append_cons_of_mem (List.mem_reverse.mpr h)
  refine ⟨String.ofList front.reverse, String.ofList back.reverse, ?_, ?_⟩
  · rw [← String.toList_inj, ← List.reverse_inj, hback]
    simp
  · simpa using hslash

theorem exists_endsIn_of_name (hslash : '/' ∉ name.toList) (hname : Tailless name)
    (h : extension? name.toList = some ext) : ∃ suffix, EndsIn name suffix := by
  obtain ⟨stem, suffix, hparts, hstem, hsuffix, hdot, -⟩ := extension?_eq_some_iff.mp h
  have heq : name = String.ofList stem ++ "." ++ String.ofList suffix := by
    rw [← String.toList_inj, hparts]
    simp
  rw [heq] at hslash hname ⊢
  rw [String.toList_append, String.toList_append, List.mem_append, List.mem_append, not_or,
    not_or] at hslash
  refine ⟨String.ofList suffix, .name ?_ hslash.1.1 ⟨hname.of_append.2, ?_, ?_, hslash.2⟩⟩
  · exact mt String.ofList_eq_empty_iff.mp hstem
  · exact mt String.ofList_eq_empty_iff.mp hsuffix
  · rwa [String.toList_ofList]

theorem exists_endsIn (hpath : Tailless path)
    (h : extension? (path.toList.rtakeWhile (· != '/')) = some ext) :
    ∃ suffix, EndsIn path suffix := by
  by_cases hslash : '/' ∈ path.toList
  · obtain ⟨folder, name, rfl, hname⟩ := exists_folder hslash
    rw [rtakeWhile_inside, rtakeWhile_of_slash_not_mem hname] at h
    obtain ⟨suffix, hsuffix⟩ := exists_endsIn_of_name hname hpath.of_append.2 h
    exact ⟨suffix, hsuffix.inside folder⟩
  · rw [rtakeWhile_of_slash_not_mem hslash] at h
    exact exists_endsIn_of_name hslash hpath h

theorem HasPath.extension_eq_suffix (h : HasPath url path) (hsuffix : EndsIn path suffix)
    (contentType : String) : extension url contentType = "." ++ suffix := by
  rw [extension_eq, fileName_eq, h.pathOf_eq, hsuffix.extension?_eq, Option.getD_some]

theorem HasPath.extension_eq_ofContentType (h : HasPath url path)
    (hnone : ∀ suffix, ¬ EndsIn path suffix) (contentType : String) :
    extension url contentType = ofContentType contentType := by
  rw [extension_eq, fileName_eq, h.pathOf_eq]
  cases hext : extension? (path.toList.rtakeWhile (· != '/')) with
  | none => exact Option.getD_none
  | some ext =>
    obtain ⟨suffix, hsuffix⟩ := exists_endsIn h.tailless hext
    exact absurd hsuffix (hnone suffix)

theorem exists_ofContentType (contentType : String) :
    ∃ suffix, ofContentType contentType = "." ++ suffix ∧ IsSuffix suffix := by
  unfold ofContentType
  split
  · exact ⟨"webm", rfl, ⟨by decide, by decide⟩, by decide, by decide, by decide⟩
  · exact ⟨"mp4", rfl, ⟨by decide, by decide⟩, by decide, by decide, by decide⟩

theorem exists_extension (url contentType : String) :
    ∃ suffix, extension url contentType = "." ++ suffix ∧ IsSuffix suffix := by
  obtain ⟨path, hpath⟩ := exists_hasPath url
  by_cases h : ∃ suffix, EndsIn path suffix
  · obtain ⟨suffix, hsuffix⟩ := h
    exact ⟨suffix, hpath.extension_eq_suffix hsuffix contentType, hsuffix.isSuffix⟩
  · rw [hpath.extension_eq_ofContentType (not_exists.mp h)]
    exact exists_ofContentType contentType

theorem extension_append_tail {tail : String} (url : String) (h : IsTail tail)
    (contentType : String) : extension (url ++ tail) contentType = extension url contentType := by
  rw [extension_eq, extension_eq, fileName_eq, fileName_eq, pathOf_append_tail url h]

theorem extension_bare {scheme authority : String} (h : Undivided scheme)
    (hslash : '/' ∉ authority.toList) (contentType : String) :
    extension (scheme ++ "://" ++ authority) contentType = ofContentType contentType := by
  have hnone : extension? [] = none := rfl
  rw [extension_eq, fileName_eq, pathOf_bare h hslash, List.rtakeWhile_nil, hnone,
    Option.getD_none]

end Names

/-- The extension of a video is a dot and a suffix without further dots, without slashes and
without the marks of queries and fragments. No query and no fragment has an influence on it, and
where an address is that of a host, it depends on the content type alone. An address has exactly
one path, and the extension is the suffix of the name at its end, or, if there is none, the one
for the content type. -/
theorem extension_follows_path (url contentType : String) :
    (∃ suffix, extension url contentType = "." ++ suffix ∧ IsSuffix suffix) ∧
    (∀ tail, IsTail tail → extension (url ++ tail) contentType = extension url contentType) ∧
    (∀ scheme authority, Undivided scheme → '/' ∉ authority.toList →
      url = scheme ++ "://" ++ authority →
        extension url contentType = ofContentType contentType) ∧
    (∃! path, HasPath url path) ∧
    ∀ path, HasPath url path →
      (∀ suffix, EndsIn path suffix → extension url contentType = "." ++ suffix) ∧
      ((∀ suffix, ¬ EndsIn path suffix) →
        extension url contentType = ofContentType contentType) := by
  refine ⟨exists_extension url contentType, ?_, ?_, ?_, ?_⟩
  · intro tail htail
    exact extension_append_tail url htail contentType
  · rintro scheme authority hscheme hslash rfl
    exact extension_bare hscheme hslash contentType
  · obtain ⟨path, hpath⟩ := exists_hasPath url
    exact ⟨path, hpath, fun other hother => hother.unique hpath⟩
  · intro path hpath
    constructor
    · intro suffix hsuffix
      exact hpath.extension_eq_suffix hsuffix contentType
    · intro hnone
      exact hpath.extension_eq_ofContentType hnone contentType

/-- Of the dots in these addresses, only the one at the end of the path counts. -/
theorem dottedAddresses_extension :
    let host := "https" ++ "://" ++ "cdn.example"
    (HasPath (host ++ "/" ++ "v.1/out.webm") "v.1/out.webm" ∧ EndsIn "v.1/out.webm" "webm" ∧
      IsTail "?sig=a.b/c" ∧
      extension (host ++ "/" ++ "v.1/out.webm" ++ "?sig=a.b/c") "video/mp4" = ".webm") ∧
    (HasPath (host ++ "/" ++ "download") "download" ∧ (∀ suffix, ¬ EndsIn "download" suffix) ∧
      extension (host ++ "/" ++ "download") "video/webm" = ".webm") ∧
    Undivided "https" ∧ '/' ∉ "cdn.example".toList ∧ extension host "video/mp4" = ".mp4" := by
  have hscheme : Undivided "https" := ⟨⟨by decide, by decide⟩, by decide⟩
  have hauthority : Tailless "cdn.example" := ⟨by decide, by decide⟩
  have hslash : '/' ∉ "cdn.example".toList := by decide
  have hvideo : HasPath ("https" ++ "://" ++ "cdn.example" ++ "/" ++ "v.1/out.webm")
      "v.1/out.webm" :=
    .hosted hscheme hauthority hslash ⟨by decide, by decide⟩
  have hsuffix : EndsIn ("v.1" ++ "/" ++ ("out" ++ "." ++ "webm")) "webm" :=
    .inside "v.1" (.name (by decide) (by decide)
      ⟨⟨by decide, by decide⟩, by decide, by decide, by decide⟩)
  have htail : IsTail "?sig=a.b/c" := by decide
  have hdownload : HasPath ("https" ++ "://" ++ "cdn.example" ++ "/" ++ "download") "download" :=
    .hosted hscheme hauthority hslash ⟨by decide, by decide⟩
  have hnone : ∀ suffix, ¬ EndsIn "download" suffix := by
    intro suffix hdownload
    have hext : extension? ("download".toList.rtakeWhile (· != '/')) = none := by decide
    rw [hdownload.extension?_eq] at hext
    cases hext
  obtain ⟨-, htailed, -, -, hpaths⟩ :=
    extension_follows_path ("https" ++ "://" ++ "cdn.example" ++ "/" ++ "v.1/out.webm") "video/mp4"
  obtain ⟨-, -, -, -, hplain⟩ :=
    extension_follows_path ("https" ++ "://" ++ "cdn.example" ++ "/" ++ "download") "video/webm"
  obtain ⟨-, -, hbare, -, -⟩ :=
    extension_follows_path ("https" ++ "://" ++ "cdn.example") "video/mp4"
  refine ⟨⟨hvideo, hsuffix, htail, ?_⟩, ⟨hdownload, hnone, ?_⟩, hscheme, hslash, ?_⟩
  · exact (htailed _ htail).trans ((hpaths _ hvideo).1 _ hsuffix)
  · exact ((hplain _ hdownload).2 hnone).trans (by decide)
  · exact (hbare _ _ hscheme hslash rfl).trans (by decide)

end VideoGateway.VideoKey

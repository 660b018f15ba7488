import Mathlib.Data.List.Chain
import VideoGateway.Proofs.Storage.ObjectPath
import VideoGateway.Proofs.Storage.VideoExtension

/-!
# Which videos are stored at the same path

The key of a video is made of its day, the id of its task and its extension. The day has three
parts, and the extension begins at the last dot; an object path keeps the parts of the key that
are not empty, so of the id it tells all but the slashes at its beginning and behind other ones.
-/
namespace VideoGateway

namespace Date

variable {c : Char}

theorem isDigit_of_mem_padded {width n : Nat} (h : c ∈ (padded width n).toList) :
    c.isDigit = true := by
  rw [padded, String.toList_ofList, List.mem_append] at h
  rcases h with h | h
  · rw [List.eq_of_mem_replicate h]
    rfl
  · exact Nat.isDigit_of_mem_toDigits (by decide) (by decide) h

theorem ofDigitChars_padded (width n : Nat) :
    Nat.ofDigitChars 10 (padded width n).toList 0 = n := by
  rw [padded, String.toList_ofList, Nat.ofDigitChars_append, Nat.ofDigitChars_replicate_zero,
    Nat.mul_zero, Nat.ofDigitChars_ten_toDigits]

theorem padded_injective (width : Nat) : Function.Injective (padded width) := by
  intro n n' h
  rw [← ofDigitChars_padded width n, h, ofDigitChars_padded]

theorem padded_ne_empty (width n : Nat) : padded width n ≠ "" := by
  intro hempty
  have hnil : (padded width n).toList = [] := by rw [hempty]; rfl
  rw [padded, String.toList_ofList, List.append_eq_nil_iff] at hnil
  exact Nat.toDigits_ne_nil hnil.2

theorem slash_not_mem_padded (width n : Nat) : '/' ∉ (padded width n).toList := by
  intro hslash
  exact absurd (isDigit_of_mem_padded hslash) (by decide)

theorem exists_yearText (year : Int) : ∃ sign : List Char,
    (yearText year).toList = sign ++ (padded 4 year.natAbs).toList ∧
      (∀ c ∈ sign, c.isDigit = false ∧ c ≠ '/') ∧ ('-' ∈ sign ↔ year < 0) := by
  unfold yearText
  split
  · next hneg =>
    exact ⟨['-'], String.toList_append, by rw [List.forall_mem_singleton]; decide,
      by simpa using hneg⟩
  · next hpos =>
    split
    · exact ⟨['+'], String.toList_append, by rw [List.forall_mem_singleton]; decide,
        by simpa using hpos⟩
    · exact ⟨[], (List.nil_append _).symm, List.forall_mem_nil _, by simpa using hpos⟩

section Years

variable (year : Int)

theorem yearText_ne_empty : yearText year ≠ "" := by
  intro hempty
  obtain ⟨sign, hyear, -⟩ := exists_yearText year
  rw [hempty] at hyear
  have hnil := (List.append_eq_nil_iff.mp hyear.symm).2
  exact padded_ne_empty 4 year.natAbs (String.toList_eq_nil_iff.mp hnil)

theorem slash_not_mem_yearText : '/' ∉ (yearText year).toList := by
  obtain ⟨sign, hyear, hsign, -⟩ := exists_yearText year
  rw [hyear, List.mem_append]
  rintro (hslash | hslash)
  · exact (hsign '/' hslash).2 rfl
  · exact slash_not_mem_padded 4 year.natAbs hslash

theorem minus_mem_yearText : '-' ∈ (yearText year).toList ↔ year < 0 := by
  obtain ⟨sign, hyear, -, hneg⟩ := exists_yearText year
  rw [hyear, List.mem_append, ← hneg, or_iff_left]
  intro hminus
  exact absurd (isDigit_of_mem_padded hminus) (by decide)

theorem ofDigitChars_yearText :
    Nat.ofDigitChars 10 ((yearText year).toList.filter Char.isDigit) 0 = year.natAbs := by
  obtain ⟨sign, hyear, hsign, -⟩ := exists_yearText year
  have hnone : sign.filter Char.isDigit = [] := by
    rw [List.filter_eq_nil_iff]
    intro c hc
    simp [(hsign c hc).1]
  have hall : (padded 4 year.natAbs).toList.filter Char.isDigit = (padded 4 year.natAbs).toList :=
    List.filter_eq_self.mpr fun c hc => isDigit_of_mem_padded hc
  rw [hyear, List.filter_append, hnone, hall, List.nil_append, ofDigitChars_padded]

end Years

theorem yearText_injective : Function.Injective yearText := by
  intro year year' h
  have habs : year.natAbs = year'.natAbs := by
    rw [← ofDigitChars_yearText, h, ofDigitChars_yearText]
  have hneg : year < 0 ↔ year' < 0 := by
    rw [← minus_mem_yearText, h, minus_mem_yearText]
  omega

end Date

section Joined

open ObjectPath (parts)

variable {s t : String}

theorem ObjectPath.parts_of_slash_not_mem (hne : s ≠ "") (hslash : '/' ∉ s.toList) :
    parts s = [s.toList] := by
  rw [parts, Text.splitAll_of_not_mem hslash, List.filter_cons_of_pos]
  · rfl
  · simpa using hne

theorem ObjectPath.parts_append_of_slash_not_mem (hs : '/' ∉ s.toList) (ht : '/' ∉ t.toList)
    (hne : t ≠ "") : parts (s ++ t) = [s.toList ++ t.toList] := by
  rw [← String.toList_append]
  apply parts_of_slash_not_mem
  · intro hempty
    exact hne (String.append_eq_empty_iff.mp hempty).2
  · rw [String.toList_append, List.mem_append]
    exact not_or.mpr ⟨hs, ht⟩

theorem ObjectPath.exists_parts_append (s : String) : ∃ front last, ∀ t : String, t ≠ "" →
    '/' ∉ t.toList → parts (s ++ t) = front ++ [last ++ t.toList] := by
  by_cases hmem : '/' ∈ s.toList
  · obtain ⟨front, back, hs, hslash⟩ := VideoKey.exists_folder hmem
    refine ⟨parts front, back.toList, ?_⟩
    intro t hne ht
    rw [hs, String.append_assoc, parts_append_slash, parts_append_of_slash_not_mem hslash ht hne]
  · refine ⟨[], s.toList, ?_⟩
    intro t hne ht
    exact parts_append_of_slash_not_mem hmem ht hne

end Joined

namespace VideoKey

open ObjectPath (parts)

/-- The characters without the slashes behind other ones. One before the first character may
be taken into account. -/
def squeeze (afterSlash : Bool) : List Char → List Char
  | [] => []
  | c :: cs =>
    if c = '/' then if afterSlash then squeeze true cs else c :: squeeze true cs
    else c :: squeeze false cs

/-- The characters of an id without the slashes at its beginning and behind other ones. -/
def squeezed (id : String) : List Char :=
  squeeze true id.toList

/-- No slash stands at the beginning of the id or behind another one. -/
def Tidy (id : String) : Prop :=
  id.toList.head? ≠ some '/' ∧ id.toList.IsChain fun c d => ¬ (c = '/' ∧ d = '/')

section Squeezed

variable {cs tail part : List Char} {ps : List (List Char)} {c : Char} {after : Bool}

theorem squeeze_of_slash_not_mem (h : '/' ∉ cs) : squeeze after cs = cs := by
  induction cs generalizing after with
  | nil => rfl
  | cons c cs ih =>
    rw [List.mem_cons, not_or] at h
    rw [squeeze, if_neg (Ne.symm h.1), ih h.2]

theorem squeeze_append (h : '/' ∉ tail) : squeeze after (cs ++ tail) = squeeze after cs ++ tail := by
  induction cs generalizing after with
  | nil => exact squeeze_of_slash_not_mem h
  | cons c cs ih =>
    rw [List.cons_append, squeeze, squeeze, ih, ih]
    split
    · split
      · rfl
      · rfl
    · rfl

theorem squeeze_eq_self (hstart : after = true → cs.head? ≠ some '/')
    (hchain : cs.IsChain fun c d => ¬ (c = '/' ∧ d = '/')) : squeeze after cs = cs := by
  induction cs generalizing after with
  | nil => rfl
  | cons c cs ih =>
    obtain ⟨hnext, hchain⟩ := List.isChain_cons.mp hchain
    rw [squeeze]
    split
    · next hc =>
      have hafter : ¬ after = true := fun htrue => hstart htrue (congrArg some hc)
      have hhead : cs.head? ≠ some '/' := fun hhead => hnext '/' hhead ⟨hc, rfl⟩
      rw [if_neg hafter, ih (fun _ => hhead) hchain]
    · rw [ih (fun hfalse => absurd hfalse Bool.false_ne_true) hchain]

theorem Tidy.squeezed_eq {id : String} (h : Tidy id) : squeezed id = id.toList :=
  squeeze_eq_self (fun _ => h.1) h.2

theorem intercalate_cons (c : Char) (part : List Char) (ps : List (List Char)) :
    ['/'].intercalate ((c :: part) :: ps) = c :: ['/'].intercalate (part :: ps) := by
  cases ps with
  | nil => rfl
  | cons next ps => rfl

/-- The parts that are not empty, with slashes between them, are the text without its other
slashes, if none stands at its end. -/
theorem intercalate_splitAll_append (hne : tail ≠ []) (hslash : '/' ∉ tail) (cs : List Char) :
    ∃ part ps, Text.splitAll '/' (cs ++ tail) = part :: ps ∧
      ['/'].intercalate ((part :: ps).filter fun p => !p.isEmpty) = squeeze true (cs ++ tail) ∧
      ['/'].intercalate (part :: ps.filter fun p => !p.isEmpty) = squeeze false (cs ++ tail) := by
  induction cs with
  | nil =>
    have hfull : [tail].filter (fun p => !p.isEmpty) = [tail] := by simpa using hne
    refine ⟨tail, [], Text.splitAll_of_not_mem hslash, ?_, ?_⟩
    · rw [hfull, List.nil_append, squeeze_of_slash_not_mem hslash]
      exact List.intercalate_singleton
    · rw [List.nil_append, squeeze_of_slash_not_mem hslash]
      exact List.intercalate_singleton
  | cons c cs ih =>
    obtain ⟨part, ps, hsplit, htrue, hfalse⟩ := ih
    rw [List.cons_append, Text.splitAll, hsplit]
    by_cases hc : c = '/'
    · rw [if_pos hc]
      refine ⟨[], part :: ps, rfl, ?_, ?_⟩
      · rw [List.filter_cons_of_neg (by simp), htrue, squeeze, if_pos hc, if_pos rfl]
      · -- Behind the slash comes some part, since the text does not end there.
        have hsome : (part :: ps).filter (fun p => !p.isEmpty) ≠ [] := by
          intro hnone
          rw [hnone, squeeze_append hslash] at htrue
          exact hne (List.append_eq_nil_iff.mp htrue.symm).2
        obtain ⟨first, rest, hparts⟩ := List.exists_cons_of_ne_nil hsome
        rw [squeeze, if_pos hc, if_neg Bool.false_ne_true, ← htrue, hparts, hc]
        rfl
    · rw [if_neg hc]
      refine ⟨c :: part, ps, rfl, ?_, ?_⟩
      · rw [List.filter_cons_of_pos rfl, intercalate_cons, hfalse, squeeze, if_neg hc]
      · rw [intercalate_cons, hfalse, squeeze, if_neg hc]

/-- Before the end of a text without slashes, the parts of an id are those between its slashes
that are left. -/
theorem parts_append (id : String) {ext : String} (hne : ext ≠ "") (hslash : '/' ∉ ext.toList) :
    parts (id ++ ext) = Text.splitAll '/' (squeezed id ++ ext.toList) := by
  have hnil : ext.toList ≠ [] := fun hnil => hne (String.toList_eq_nil_iff.mp hnil)
  obtain ⟨part, ps, hsplit, htrue, -⟩ := intercalate_splitAll_append hnil hslash id.toList
  have hjoined : ['/'].intercalate (parts (id ++ ext)) = squeezed id ++ ext.toList := by
    rw [parts, String.toList_append, hsplit, htrue, squeeze_append hslash, squeezed]
  have hsome : parts (id ++ ext) ≠ [] := by
    intro hnone
    rw [hnone] at hjoined
    exact hnil (List.append_eq_nil_iff.mp hjoined.symm).2
  rw [← hjoined, Text.splitAll_intercalate (fun part hpart => (ObjectPath.mem_parts hpart).2) hsome]

end Squeezed

section Keys

variable {id id' ext ext' : String} {now now' : Instant}

/-- The last dot parts an id from the extension. -/
theorem append_extension_inj {cs cs' rest rest' : List Char} (hdot : '.' ∉ rest)
    (hdot' : '.' ∉ rest') : cs ++ '.' :: rest = cs' ++ '.' :: rest' ↔ cs = cs' ∧ rest = rest' := by
  constructor
  · intro h
    have hpair : Text.cutAt? '.' (cs ++ '.' :: rest).reverse = some (rest.reverse, cs.reverse) :=
      Text.cutAt?_reverse hdot
    rw [h, Text.cutAt?_reverse hdot', Option.some_inj, Prod.mk.injEq, List.reverse_inj,
      List.reverse_inj] at hpair
    exact ⟨hpair.2.symm, hpair.1.symm⟩
  · rintro ⟨rfl, rfl⟩
    rfl

theorem trimLeft_make (id ext : String) (now : Instant) :
    Text.trimLeft (· == '/') (make id ext now) = make id ext now := by
  have hne : (Date.yearText now.date.year).toList ≠ [] :=
    fun hnil => Date.yearText_ne_empty _ (String.toList_eq_nil_iff.mp hnil)
  obtain ⟨c, cs, hyear⟩ := List.exists_cons_of_ne_nil hne
  have hc : ¬ (c == '/') = true := by
    intro hc
    apply Date.slash_not_mem_yearText now.date.year
    rw [hyear, ← beq_iff_eq.mp hc]
    exact List.mem_cons_self
  obtain ⟨rest, hkey⟩ : ∃ rest, (make id ext now).toList = c :: rest := by
    rw [make, Date.path]
    simp only [String.toList_append, hyear, List.cons_append]
    exact ⟨_, rfl⟩
  rw [Text.trimLeft, hkey, List.dropWhile_cons_of_neg (p := (· == '/')) hc, ← hkey,
    String.ofList_toList]

/-- Behind whatever all keys begin with, the parts of a key are those of the day and then those
of the id with the extension. -/
theorem exists_parts_make (start : String) : ∃ front last, ∀ (id ext : String) (now : Instant),
    parts (start ++ Text.trimLeft (· == '/') (make id ext now)) =
      front ++ ((last ++ (Date.yearText now.date.year).toList) ::
        (Date.padded 2 now.date.month).toList :: (Date.padded 2 now.date.day).toList ::
          parts (id ++ ext)) := by
  obtain ⟨front, last, hparts⟩ := ObjectPath.exists_parts_append start
  refine ⟨front, last, ?_⟩
  intro id ext now
  have hyear := hparts _ (Date.yearText_ne_empty now.date.year)
    (Date.slash_not_mem_yearText now.date.year)
  have hpadded : ∀ n, parts (Date.padded 2 n) = [(Date.padded 2 n).toList] := fun n =>
    ObjectPath.parts_of_slash_not_mem (Date.padded_ne_empty 2 n) (Date.slash_not_mem_padded 2 n)
  have hkey : start ++ make id ext now = start ++ Date.yearText now.date.year ++ "/" ++
      (Date.padded 2 now.date.month ++ "/" ++ (Date.padded 2 now.date.day ++ "/" ++ (id ++ ext))) := by
    rw [make, Date.path]
    simp only [String.append_assoc]
  rw [trimLeft_make, hkey, ObjectPath.parts_append_slash, ObjectPath.parts_append_slash,
    ObjectPath.parts_append_slash, hyear, hpadded, hpadded]
  simp only [List.append_assoc, List.cons_append, List.nil_append]

theorem date_eq_iff {d d' : Date} : d = d' ↔ Date.yearText d.year = Date.yearText d'.year ∧
    Date.padded 2 d.month = Date.padded 2 d'.month ∧ Date.padded 2 d.day = Date.padded 2 d'.day := by
  rw [Date.yearText_injective.eq_iff, (Date.padded_injective 2).eq_iff,
    (Date.padded_injective 2).eq_iff]
  cases d
  cases d'
  rw [Date.mk.injEq]

/-- With some extension for each, two ids have the same parts exactly when the extensions are
equal and the ids are, but for idle slashes. -/
theorem parts_append_extension_eq_iff (id id' url url' contentType contentType' : String) :
    parts (id ++ extension url contentType) = parts (id' ++ extension url' contentType') ↔
      extension url contentType = extension url' contentType' ∧ squeezed id = squeezed id' := by
  have hparts : ∀ id url contentType, parts (id ++ extension url contentType) =
      Text.splitAll '/' (squeezed id ++ (extension url contentType).toList) := by
    intro id url contentType
    obtain ⟨suffix, hext, hsuffix⟩ := exists_extension url contentType
    rw [hext]
    apply parts_append
    · intro hempty
      exact hsuffix.nonempty (String.append_eq_empty_iff.mp hempty).2
    · rw [String.toList_append, List.mem_append, not_or]
      exact ⟨by decide, hsuffix.noSlash⟩
  obtain ⟨suffix, hext, hsuffix⟩ := exists_extension url contentType
  obtain ⟨suffix', hext', hsuffix'⟩ := exists_extension url' contentType'
  rw [hparts, hparts, (Text.splitAll_injective '/').eq_iff, hext, hext', String.toList_append,
    String.toList_append]
  exact (append_extension_inj hsuffix.noDot hsuffix'.noDot).trans
    (by rw [String.toList_inj, String.append_right_inj, and_comm])

end Keys

end VideoKey

namespace BucketLocation

open VideoKey (make extension squeezed Tidy)

theorem objectPath_make_eq_iff_squeezed (l : BucketLocation)
    (id id' url url' contentType contentType' : String) (now now' : Instant) :
    l.objectPath (make id (extension url contentType) now) =
        l.objectPath (make id' (extension url' contentType') now') ↔
      now.date = now'.date ∧ extension url contentType = extension url' contentType' ∧
        squeezed id = squeezed id' := by
  obtain ⟨front, last, hmake⟩ := VideoKey.exists_parts_make l.keyStart
  rw [← VideoKey.parts_append_extension_eq_iff, VideoKey.date_eq_iff, and_assoc, and_assoc,
    objectPath, objectPath, ObjectPath.ofKey_eq_iff, hmake, hmake, List.append_right_inj,
    List.cons.injEq, List.cons.injEq, List.cons.injEq, List.append_right_inj, String.toList_inj,
    String.toList_inj, String.toList_inj]

/-- At one place, two videos are stored at the same path exactly when they are of the same day,
have the same extension, and the ids of their tasks are the same but for slashes at the beginning
and behind other slashes. So ids without such slashes are told apart. -/
theorem objectPath_make_eq_iff (l : BucketLocation)
    (id id' url url' contentType contentType' : String) (now now' : Instant) :
    let path := l.objectPath (make id (extension url contentType) now)
    let path' := l.objectPath (make id' (extension url' contentType') now')
    (path = path' ↔ now.date = now'.date ∧
      extension url contentType = extension url' contentType' ∧ squeezed id = squeezed id') ∧
    (Tidy id → Tidy id' → id ≠ id' → path ≠ path') := by
  intro path path'
  have hiff := l.objectPath_make_eq_iff_squeezed id id' url url' contentType contentType' now now'
  refine ⟨hiff, ?_⟩
  intro hid hid' hne hpath
  obtain ⟨-, -, hsqueezed⟩ := hiff.mp hpath
  rw [hid.squeezed_eq, hid'.squeezed_eq] at hsqueezed
  exact hne (String.toList_inj.mp hsqueezed)

/-- Two videos of one day are told apart by the ids that a vendor gave. -/
theorem objectPath_make_ne :
    let l := inMemory "http://cdn.test" "videos"
    let ext := extension "http://vendor.test/v.mp4" "video/mp4"
    Tidy "cgt-1" ∧ Tidy "cgt-1/a" ∧
      l.objectPath (make "cgt-1" ext ⟨0⟩) ≠ l.objectPath (make "cgt-1/a" ext ⟨0⟩) := by
  have htidy : Tidy "cgt-1" := ⟨by decide, by decide⟩
  have htidy' : Tidy "cgt-1/a" := ⟨by decide, by decide⟩
  have hpaths := objectPath_make_eq_iff (inMemory "http://cdn.test" "videos") "cgt-1" "cgt-1/a"
    "http://vendor.test/v.mp4" "http://vendor.test/v.mp4" "video/mp4" "video/mp4" ⟨0⟩ ⟨0⟩
  exact ⟨htidy, htidy', hpaths.2 htidy htidy' (by decide)⟩

/-- A slash at the beginning of an id is lost. -/
theorem objectPath_make_collides :
    let l := inMemory "http://cdn.test" ""
    let ext := extension "http://vendor.test/v.mp4" "video/mp4"
    "a" ≠ "/a" ∧ Text.trim "a" ≠ "" ∧ Text.trim "/a" ≠ "" ∧
      l.objectPath (make "a" ext ⟨0⟩) = l.objectPath (make "/a" ext ⟨0⟩) := by
  have hpaths := (inMemory "http://cdn.test" "").objectPath_make_eq_iff_squeezed "a" "/a"
    "http://vendor.test/v.mp4" "http://vendor.test/v.mp4" "video/mp4" "video/mp4" ⟨0⟩ ⟨0⟩
  exact ⟨by decide, by decide, by decide, hpaths.mpr ⟨rfl, rfl, by decide⟩⟩

end BucketLocation

end VideoGateway

import VideoGateway.Proofs.Basic
import VideoGateway.Proofs.Storage.ObjectPath
import VideoGateway.Proofs.Url.Tail

/-!
# Signed and public links

The public link of an object is put together from the configuration, and the signed one is the
address under which the bucket is called, with the path in its escaped form. Where both begin with
the same address, they agree on the paths that have nothing to be escaped, and on no others.
-/
namespace VideoGateway

open Text.Percent (encode Written forall_octet)

section Trimming

variable {p : Char → Bool} {s t : String}

theorem trimRight_trimRight (p : Char → Bool) (s : String) :
    Text.trimRight p (Text.trimRight p s) = Text.trimRight p s := by
  rw [Text.trimRight, Text.trimRight, String.toList_ofList]
  exact congrArg String.ofList (List.rdropWhile_idempotent p s.toList)

theorem trimRight_append (hne : t ≠ "") (ht : Text.trimRight p t = t) (s : String) :
    Text.trimRight p (s ++ t) = s ++ t := by
  have hnil : t.toList ≠ [] := fun hnil => hne (String.toList_eq_nil_iff.mp hnil)
  have hself : List.rdropWhile p t.toList = t.toList := by
    conv_rhs => rw [← ht, Text.trimRight, String.toList_ofList]
    rfl
  have hlast := List.rdropWhile_eq_self_iff.mp hself hnil
  apply String.toList_inj.mp
  rw [Text.trimRight, String.toList_ofList]
  apply List.rdropWhile_eq_self_iff.mpr
  intro hwhole
  have hend : (s ++ t).toList.getLast hwhole = t.toList.getLast hnil := by
    simp only [String.toList_append]
    exact List.getLast_append_of_ne_nil _ hnil
  rwa [hend]

end Trimming

namespace StorageConfig

variable {c : StorageConfig}

/-- The link to an object, where links are signed or not. -/
def linkTo (c : StorageConfig) (signed : Bool) (key : String) (lifetime : Option Nat) :
    Except StorageError String := do
  let l ← { c with signsLinks := signed }.location
  l.link key lifetime

def objectPath (c : StorageConfig) (key : String) : String :=
  ObjectPath.ofKey (keyPrefixOf c.basePath) key

/-- Public links begin with the address under which the bucket is called. -/
def LinksToBucket (c : StorageConfig) : Prop :=
  c.customEndpoint?.isSome = true ∨ c.secure = true ∧ c.isHostNamed = true

/-- An endpoint is more than slashes. -/
def HasEndpoint (c : StorageConfig) : Prop :=
  c.endpoint = "" ∨ Text.trimRight (· == '/') c.endpoint ≠ ""

theorem trimRight_customEndpoint (hendpoint : c.HasEndpoint) {endpoint : String}
    (h : c.customEndpoint? = some endpoint) : Text.trimRight (· == '/') endpoint = endpoint := by
  have hurl : c.endpointUrl? = some endpoint := (Option.filter_eq_some_iff.mp h).1
  unfold endpointUrl? at hurl
  split at hurl
  · cases hurl
  · next hne =>
    have hsome : Text.trimRight (· == '/') c.endpoint ≠ "" := by
      rcases hendpoint with hempty | hsome
      · exact absurd (String.isEmpty_iff.mpr hempty) hne
      · exact hsome
    dsimp only at hurl
    split at hurl
    · obtain rfl := Option.some.inj hurl
      exact trimRight_trimRight _ _
    · obtain rfl := Option.some.inj hurl
      exact trimRight_append hsome (trimRight_trimRight _ _) _

def defaultHost (c : StorageConfig) : String :=
  "s3." ++ c.regionOrDefault ++ "." ++ BucketKind.defaultDomain

section Default

variable (hdomain : c.domain = none) (hcustom : c.customEndpoint? = none)

include hdomain hcustom in
theorem publicBase_of_default :
    c.publicBase = c.scheme ++ "://" ++ c.bucketName ++ "." ++ c.defaultHost := by
  have hdots : (".s3." : String) = "." ++ "s3." := by decide
  rw [publicBase, hdomain, hcustom, defaultHost, hdots]
  simp only [String.append_assoc]

include hcustom in
theorem bucketAddress_of_default : c.bucketAddress =
    if c.isHostNamed then "https://" ++ c.bucketName ++ "." ++ c.defaultHost
    else "https://" ++ c.defaultHost ++ "/" ++ c.bucketName := by
  rw [bucketAddress, hcustom]
  rfl

end Default

theorem publicBase_eq_bucketAddress (hdomain : c.domain = none) (hendpoint : c.HasEndpoint)
    (h : c.LinksToBucket) : c.publicBase = c.bucketAddress := by
  cases hcustom : c.customEndpoint? with
  | some endpoint =>
    rw [publicBase, bucketAddress, hdomain, hcustom]
    dsimp only
    rw [trimRight_customEndpoint hendpoint hcustom]
  | none =>
    rcases h with hsome | ⟨hsecure, hhost⟩
    · rw [hcustom] at hsome
      cases hsome
    · have hscheme : c.scheme ++ "://" = "https://" := by
        rw [scheme, hsecure]
        decide
      rw [publicBase_of_default hdomain hcustom, bucketAddress_of_default hcustom, if_pos hhost,
        hscheme]

/-- No path makes up for different addresses. -/
theorem linksToBucket_of_eq (hdomain : c.domain = none) {path path' : String}
    (hlength : path.toList.length ≤ path'.toList.length)
    (hlonger : path.toList.length = path'.toList.length → path = path')
    (h : c.bucketAddress ++ "/" ++ path' = c.publicBase ++ "/" ++ path) : c.LinksToBucket := by
  cases hcustom : c.customEndpoint? with
  | some endpoint => exact .inl (by rw [hcustom]; rfl)
  | none =>
    rw [publicBase_of_default hdomain hcustom, bucketAddress_of_default hcustom] at h
    cases hsecure : c.secure with
    | false =>
      -- The fifth character tells the schemes apart.
      exfalso
      have hscheme : c.scheme = "http" := by rw [scheme, hsecure]; rfl
      have hlist := congrArg String.toList h
      rw [hscheme] at hlist
      split at hlist
      · simp at hlist
      · simp at hlist
    | true =>
      have hscheme : c.scheme ++ "://" = "https://" := by
        rw [scheme, hsecure]
        decide
      cases hhost : c.isHostNamed with
      | true => exact .inr ⟨hsecure, hhost⟩
      | false =>
        exfalso
        rw [hhost, if_neg Bool.false_ne_true, hscheme] at h
        have hslash : "/".toList = ['/'] := rfl
        have hdot : ".".toList = ['.'] := rfl
        have hlist := congrArg String.toList h
        simp only [String.toList_append, hslash, hdot] at hlist
        have hsize := congrArg List.length hlist
        simp only [List.length_append, List.length_singleton] at hsize
        obtain rfl := hlonger (by omega)
        have hcount := congrArg (List.count '/') hlist
        simp only [List.count_append, List.count_singleton_self] at hcount
        have hone : List.count '/' ['.'] = 0 := by decide
        omega

end StorageConfig

section SignedPath

open BucketLocation (isEscapedInSignedPath)

theorem encode_ofKey (start key : String) :
    encode isEscapedInSignedPath (ObjectPath.ofKey start key) =
      "/".intercalate ((ObjectPath.parts (start ++ Text.trimLeft (· == '/') key)).map fun part =>
        encode isEscapedInSignedPath (ObjectPath.escapePart part)) := by
  have hslash : encode isEscapedInSignedPath "/" = "/" := by decide
  rw [ObjectPath.ofKey, Text.Percent.encode_intercalate hslash, List.map_map]
  rfl

theorem plain_of_mem_signedPath {path : String} {c : Char}
    (h : c ∈ (encode isEscapedInSignedPath path).toList) :
    0x20 < c.toNat ∧ c ≠ '#' ∧ c ≠ '?' ∧ c ≠ '\\' := by
  rcases Text.Percent.mem_encode_cases h with hc | ⟨b, -, hwritten, rfl⟩
  · have htriple : ∀ c ∈ "%0123456789ABCDEF".toList,
        0x20 < c.toNat ∧ c ≠ '#' ∧ c ≠ '?' ∧ c ≠ '\\' := List.all_iff_forall_prop.mp (by decide)
    exact htriple c hc
  · have hkept : ∀ b, Written isEscapedInSignedPath b = false → 0x20 < (Char.ofNat b.toNat).toNat ∧
        Char.ofNat b.toNat ≠ '#' ∧ Char.ofNat b.toNat ≠ '?' ∧ Char.ofNat b.toNat ≠ '\\' :=
      forall_octet (by decide +kernel)
    exact hkept b hwritten

theorem not_isDots_signedPart (part : List Char) :
    ¬ Url.IsDots (encode isEscapedInSignedPath (ObjectPath.escapePart part)).toList := by
  intro hdots
  have hdecode := Url.decode?_of_isDots hdots
  rw [String.ofList_toList, Text.Percent.decode?_encode (.inl rfl)] at hdecode
  obtain ⟨hdot, hdotdot⟩ := ObjectPath.escapePart_ne_dots part
  simp only [List.mem_cons, List.not_mem_nil, or_false, Option.some_inj] at hdecode
  rcases hdecode with h | h
  · exact hdot h
  · exact hdotdot h

theorem not_isDots_of_mem_signedPath {start key : String} {segment : List Char}
    (h : segment ∈ Text.splitAll '/'
      (encode isEscapedInSignedPath (ObjectPath.ofKey start key)).toList) :
    ¬ Url.IsDots segment := by
  have hslash : "/".toList = ['/'] := rfl
  rw [encode_ofKey, String.toList_intercalate, hslash, List.map_map] at h
  by_cases hnone : ObjectPath.parts (start ++ Text.trimLeft (· == '/') key) = []
  · rw [hnone] at h
    obtain rfl := List.mem_singleton.mp h
    decide
  · rw [Text.splitAll_intercalate _ (by simpa using hnone)] at h
    · obtain ⟨part, -, rfl⟩ := List.mem_map.mp h
      exact not_isDots_signedPart part
    · intro segment hsegment
      obtain ⟨part, hpart, rfl⟩ := List.mem_map.mp hsegment
      intro hmem
      rcases Text.Percent.mem_encode hmem with hmem | ⟨hmem, -⟩
      · exact absurd hmem (by decide)
      · exact ObjectPath.slash_not_mem_escapePart (ObjectPath.mem_parts hpart).2 hmem

theorem mark_not_mem_signedPath (path : String) :
    '?' ∉ (encode isEscapedInSignedPath path).toList :=
  fun hmem => (plain_of_mem_signedPath hmem).2.2.1 rfl

theorem stays_signedPath (start key : String) :
    Url.Stays (encode isEscapedInSignedPath (ObjectPath.ofKey start key)).toList := by
  constructor
  · constructor
    · have hblank : ∀ blank : Char, blank.toNat ≤ 0x20 →
          blank ∉ (encode isEscapedInSignedPath (ObjectPath.ofKey start key)).toList :=
        fun blank hle hmem => Nat.not_lt_of_le hle (plain_of_mem_signedPath hmem).1
      intro c hc
      refine ⟨?_, ?_, ?_⟩
      · rintro rfl
        exact hblank _ (by decide) hc
      · rintro rfl
        exact hblank _ (by decide) hc
      · rintro rfl
        exact hblank _ (by decide) hc
    · intro c hc
      exact (plain_of_mem_signedPath (List.mem_of_getLast? hc)).1
  · exact fun hmem => (plain_of_mem_signedPath hmem).2.1 rfl
  · exact fun hmem => (plain_of_mem_signedPath hmem).2.2.2 rfl
  · intro segment hsegment
    rw [Url.cutTail_of_not_mem (mark_not_mem_signedPath _)] at hsegment
    dsimp only at hsegment
    exact not_isDots_of_mem_signedPath hsegment

/-- Addresses take the path of a signed link as it is. -/
theorem escapeTail_signedPath (path : String) :
    Url.escapeTail (encode isEscapedInSignedPath path).toList =
      encode isEscapedInSignedPath path := by
  have hsmaller : ∀ b, Written isEscapedInSignedPath b = false →
      Written Url.isEscapedInPath b = false := forall_octet (by decide +kernel)
  rw [Url.escapeTail, Url.cutTail_of_not_mem (mark_not_mem_signedPath path)]
  dsimp only
  rw [Url.escapeSegment, String.ofList_toList,
    Text.Percent.encode_encode (List.all_iff_forall_prop.mp (by decide)) hsmaller]

/-- There are no octets that are escaped in the path of a signed link. -/
def NothingToEscape (path : String) : Prop :=
  ∀ b ∈ Text.Utf8.encode path, isEscapedInSignedPath b = false

instance (path : String) : Decidable (NothingToEscape path) :=
  inferInstanceAs (Decidable (∀ b ∈ _, _))

theorem nothingToEscape_iff {path : String} :
    NothingToEscape path ↔ encode isEscapedInSignedPath path = path := by
  have hwritten : ∀ b, Written isEscapedInSignedPath b = isEscapedInSignedPath b :=
    forall_octet (by decide +kernel)
  simp only [Text.Percent.encode_eq_self_iff, hwritten]
  rfl

end SignedPath

def withoutQuery (address : String) : String :=
  String.ofList (address.toList.takeWhile (· != '?'))

theorem withoutQuery_append {front mark : String} (hfront : '?' ∉ front.toList)
    (hmark : mark.toList.head? = some '?') (query : String) :
    withoutQuery (front ++ mark ++ query) = front := by
  have hkept : ∀ c ∈ front.toList, (c != '?') = true := by
    intro c hc
    rw [bne_iff_ne]
    rintro rfl
    exact hfront hc
  obtain ⟨rest, hrest⟩ := List.head?_eq_some_iff.mp hmark
  rw [withoutQuery, String.toList_append, String.toList_append, hrest, List.append_assoc,
    List.takeWhile_append_of_pos hkept, List.cons_append, List.takeWhile_cons_of_neg (by decide),
    List.append_nil, String.ofList_toList]

/-- The beginning of an address, in the spelling that stands for it. -/
structure SpelledOut (address : String) : Prop where
  noQuery : '?' ∉ address.toList
  noFragment : '#' ∉ address.toList
  text_eq : (Url.parse? (address ++ "/")).map (·.text) = some (address ++ "/")

namespace BucketLocation

theorem signedUrl?_eq {signing : LinkSigning} (h : SpelledOut signing.address)
    (start key : String) (lifetime : Nat) :
    signedUrl? signing (ObjectPath.ofKey start key) lifetime =
      some (signing.address ++ "/" ++ encode isEscapedInSignedPath (ObjectPath.ofKey start key) ++
        "?X-Amz-Expires=" ++ Text.natText lifetime) := by
  obtain ⟨u, hu, htext⟩ := Option.map_eq_some_iff.mp h.text_eq
  have hhosted := Url.hosted_of_parse? hu
  have hstays := stays_signedPath start key
  obtain ⟨hfragment, hquery, hpath⟩ := Url.parse?_slash hhosted h.noFragment hu
  have hnone := hquery h.noQuery
  rw [signedUrl?, Url.parse?_append hhosted hstays.counts, hu, Option.map_some, Option.map_some,
    Url.text_continued_path hfragment hnone (hpath hnone) hstays, htext, escapeTail_signedPath]

end BucketLocation

namespace StorageConfig

open BucketLocation (isEscapedInSignedPath signedUrl?)

variable {c : StorageConfig} {l : BucketLocation}

theorem location_signsLinks (h : c.location = .ok l) (signed : Bool) :
    { c with signsLinks := signed }.location = .ok {
      name := c.kind.id
      keyStart := keyPrefixOf c.basePath
      publicBase := c.publicBase
      signing := if signed then some ⟨c.bucketAddress, c.linkLifetime⟩ else none } := by
  unfold location at h ⊢
  dsimp only at h ⊢
  split at h
  · cases h
  · next hbucket =>
    rw [if_neg hbucket]
    split at h
    · cases h
    · next hkeys =>
      rw [if_neg hkeys]
      split at h
      · cases h
      · next hendpoint =>
        rw [if_neg hendpoint]
        rfl

theorem linkTo_public (h : c.location = .ok l) (key : String) (lifetime : Option Nat) :
    c.linkTo false key lifetime = .ok (c.publicBase ++ "/" ++ c.objectPath key) := by
  rw [linkTo, location_signsLinks h, ok_bind, BucketLocation.link, BucketLocation.publicUrl,
    BucketLocation.objectPath, objectPath]
  dsimp only
  rw [if_neg Bool.false_ne_true]

theorem linkTo_signed (h : c.location = .ok l) (key : String) (lifetime : Option Nat) :
    c.linkTo true key lifetime =
      (signedUrl? ⟨c.bucketAddress, c.linkLifetime⟩ (c.objectPath key)
        (lifetime.getD c.linkLifetime)).elim (.error (.bucket .refused)) .ok := by
  rw [linkTo, location_signsLinks h, ok_bind, BucketLocation.link, BucketLocation.objectPath,
    objectPath]
  dsimp only
  rw [if_pos rfl]
  dsimp only
  cases signedUrl? ⟨c.bucketAddress, c.linkLifetime⟩ _ _ with
  | none => rfl
  | some url => rfl

/-- Without a domain of its own, the public link to an object is its signed link without the query
exactly when public links begin with the address under which the bucket is called and the path
has nothing to be escaped. Addresses in another spelling are spelled out in the signed link. -/
theorem signed_link_eq_public_iff (hdomain : c.domain = none) (hendpoint : c.HasEndpoint)
    (hlocation : c.location = .ok l) (key : String) (lifetime : Option Nat) :
    ∃ link, c.linkTo false key lifetime = .ok link ∧
      (c.LinksToBucket → NothingToEscape (c.objectPath key) →
        c.linkTo true key lifetime =
          match Url.parse? link with
          | some u => .ok (u.text ++ "?X-Amz-Expires=" ++
              Text.natText (lifetime.getD c.linkLifetime))
          | none => .error (.bucket .refused)) ∧
      (SpelledOut c.bucketAddress → ∃ signed, c.linkTo true key lifetime = .ok signed ∧
        (withoutQuery signed = link ↔
          c.LinksToBucket ∧ NothingToEscape (c.objectPath key))) := by
  refine ⟨_, linkTo_public hlocation key lifetime, ?_, ?_⟩
  · intro hlinks hplain
    rw [linkTo_signed hlocation, signedUrl?, nothingToEscape_iff.mp hplain,
      publicBase_eq_bucketAddress hdomain hendpoint hlinks]
    dsimp only
    cases Url.parse? (c.bucketAddress ++ "/" ++ c.objectPath key) with
    | none => rfl
    | some u => rfl
  · intro hspelled
    have hsigned : c.linkTo true key lifetime = .ok (c.bucketAddress ++ "/" ++
        encode isEscapedInSignedPath (c.objectPath key) ++ "?X-Amz-Expires=" ++
          Text.natText (lifetime.getD c.linkLifetime)) := by
      rw [linkTo_signed hlocation, objectPath, BucketLocation.signedUrl?_eq hspelled]
      rfl
    have hmark : '?' ∉ (c.bucketAddress ++ "/" ++
        encode isEscapedInSignedPath (c.objectPath key)).toList := by
      simp only [String.toList_append, List.mem_append, not_or]
      exact ⟨⟨hspelled.noQuery, by decide⟩, mark_not_mem_signedPath _⟩
    refine ⟨_, hsigned, ?_⟩
    rw [withoutQuery_append hmark (by decide), nothingToEscape_iff]
    constructor
    · intro heq
      have hlinks : c.LinksToBucket := by
        apply linksToBucket_of_eq hdomain (Text.Percent.length_le_length_encode _ _) _ heq
        intro hlength
        exact (Text.Percent.encode_eq_self_of_length_le hlength.ge).symm
      rw [publicBase_eq_bucketAddress hdomain hendpoint hlinks, String.append_right_inj] at heq
      exact ⟨hlinks, heq⟩
    · rintro ⟨hlinks, hplain⟩
      rw [publicBase_eq_bucketAddress hdomain hendpoint hlinks, hplain]

def pathBucket : StorageConfig where
  kind := .minio
  endpoint := "minio.local:9000"
  accessKeyId := "id"
  accessKeySecret := "secret"
  bucketName := "clips"
  region := ""
  secure := true
  basePath := "videos/"
  domain := none
  signsLinks := false
  linkLifetime := defaultLifetime
  autoUpload := true

theorem pathBucket_links_agree : pathBucket.domain = none ∧ pathBucket.HasEndpoint ∧
    (∃ l, pathBucket.location = .ok l) ∧ ∃ link signed,
      pathBucket.linkTo false "2026/03/07/t-1.mp4" none = .ok link ∧
      pathBucket.linkTo true "2026/03/07/t-1.mp4" none = .ok signed ∧
      withoutQuery signed = link := by
  have hendpoint : pathBucket.HasEndpoint := .inr (by decide)
  have hlocation : ∃ l, pathBucket.location = .ok l := ⟨_, rfl⟩
  have hspelled : SpelledOut pathBucket.bucketAddress :=
    ⟨by decide, by decide, by decide +kernel⟩
  obtain ⟨l, hl⟩ := hlocation
  obtain ⟨link, hlink, -, hlinks⟩ :=
    signed_link_eq_public_iff rfl hendpoint hl "2026/03/07/t-1.mp4" none
  obtain ⟨signed, hsigned, hiff⟩ := hlinks hspelled
  exact ⟨rfl, hendpoint, ⟨l, hl⟩, link, signed, hlink, hsigned,
    hiff.mpr ⟨.inl (by decide), by decide +kernel⟩⟩

/-- The object path has the percent sign in its escaped form. The public link takes it as it is,
and the signed link escapes it again, as the bucket is called. -/
theorem pathBucket_links_differ :
    (pathBucket.linkTo false "100%.mp4" none).toOption =
      some "https://minio.local:9000/clips/videos/100%25.mp4" ∧
    (pathBucket.linkTo true "100%.mp4" none).toOption.map withoutQuery =
      some "https://minio.local:9000/clips/videos/100%2525.mp4" := by
  decide +kernel

end StorageConfig

end VideoGateway

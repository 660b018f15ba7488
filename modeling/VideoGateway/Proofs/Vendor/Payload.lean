import VideoGateway.Price.Rules
import VideoGateway.Proofs.Basic
import VideoGateway.Proofs.Generation.Normalize

/-!
# What a vendor is asked for tells the parameters

Forwarded metadata stands under keys of its own, so every other member of a
payload can be read off it. A parameter without a member is one that no model of
the vendor takes. So two requests that are put to a vendor in the same words are
made with the same parameters, and cost the same.
-/
namespace VideoGateway

attribute [ext] Params

namespace CapabilityTable

/-- The descriptors of the listed models and of the others. -/
def descriptors (t : CapabilityTable) : List Descriptor :=
  t.fallback :: t.models

theorem descriptor_mem (t : CapabilityTable) (model : String) :
    t.descriptor model ∈ t.descriptors := by
  unfold descriptor descriptors
  cases hfind : t.models.find? (·.name == model) with
  | none => exact List.mem_cons_self
  | some d => exact List.mem_cons_of_mem _ (List.mem_of_find?_eq_some hfind)

end CapabilityTable

namespace Binary64

variable {x low high : Binary64}

theorem place?_of_isFinite (h : x.isFinite = true) :
    ∃ n, x.place? = some n ∧ -(magnitudes : Int) < n ∧ n < magnitudes := by
  cases x with
  | finite negative rank =>
    have hrank := rank.isLt
    refine ⟨_, rfl, ?_⟩
    cases negative <;> simp <;> omega
  | _ => cases h

theorem isFinite_of_le (hlow : low.isFinite = true) (hhigh : high.isFinite = true)
    (hle : low.le x = true) (hge : x.le high = true) : x.isFinite = true := by
  obtain ⟨m, hm, hmin, -⟩ := place?_of_isFinite hlow
  obtain ⟨n, hn, -, hmax⟩ := place?_of_isFinite hhigh
  rw [le, hm] at hle
  rw [le, hn] at hge
  cases x with
  | finite => rfl
  | nan => cases hle
  | infinite negative =>
    exfalso
    cases negative <;> simp [place?] at hle hge <;> omega

end Binary64

theorem Text.natText_injective : Function.Injective natText := by
  intro m n h
  have hread : some m = some n := by
    rw [← readNat?_natText (Nat.le_max_left m n), h, readNat?_natText (Nat.le_max_right m n)]
  exact Option.some.inj hread

namespace ImageMode

/-- The mode with some frames and references. -/
def ofParts : Option String → Option String → List String → ImageMode
  | none, none, [] => .textOnly
  | none, none, image :: images => .reference (image :: images)
  | first, last, _ => .frames first last

theorem Within.eq_ofParts {d : Descriptor} {m : ImageMode} (h : m.Within d) :
    m = ofParts m.firstFrame? m.lastFrame? m.referenceImages := by
  cases h with
  | textOnly => rfl
  | @frames first last hsome =>
    cases first with
    | some url => rfl
    | none =>
      cases last with
      | some url => rfl
      | none => simp at hsome
  | @reference images _ hlength =>
    cases images with
    | nil => simp at hlength
    | cons image images => rfl

theorem Within.eq_textOnly {d : Descriptor} {m : ImageMode} (h : m.Within d)
    (hfirst : d.firstFrame = false) (hlast : d.lastFrame = false)
    (hreferences : d.referenceImages = false) : m = .textOnly := by
  cases h with
  | textOnly => rfl
  | frames hsome hfirst' hlast' =>
    exfalso
    rcases hsome with h | h
    · obtain ⟨url, rfl⟩ := Option.isSome_iff_exists.mp h
      simp [hfirst] at hfirst'
    · obtain ⟨url, rfl⟩ := Option.isSome_iff_exists.mp h
      simp [hlast] at hlast'
  | reference htakes => simp [hreferences] at htakes

end ImageMode

namespace Params

variable {d : Descriptor} {metadata : Json.Members} {p : Params}

theorem Within.cfgScale_isFinite (h : p.Within d metadata) :
    ∀ x ∈ p.cfgScale, x.isFinite = true := by
  intro x hx
  obtain ⟨-, hle, hge⟩ := h.cfgScale x hx
  exact Binary64.isFinite_of_le (by decide +kernel) (by decide +kernel) hle hge

theorem Within.eq_none (h : p.Within d metadata) (hseed : d.seedRange = none)
    (haudio : d.audio = false) (hcfg : d.cfgScale = false) (hfps : d.fps = false) :
    p.seed = none ∧ p.generateAudio = none ∧ p.cfgScale = none ∧ p.fps = none := by
  refine ⟨Option.eq_none_iff_forall_not_mem.mpr fun n hn => ?_,
    Option.eq_none_iff_forall_not_mem.mpr fun b hb => ?_,
    Option.eq_none_iff_forall_not_mem.mpr fun x hx => ?_,
    Option.eq_none_iff_forall_not_mem.mpr fun n hn => ?_⟩
  · obtain ⟨least, greatest, hrange, -⟩ := h.seed n hn
    simp [hseed] at hrange
  · have htakes := h.generateAudio (Option.isSome_of_mem hb)
    simp [haudio] at htakes
  · have htakes := (h.cfgScale x hx).1
    simp [hcfg] at htakes
  · have htakes := (h.fps n hn).1
    simp [hfps] at htakes

end Params

namespace Vendor

/-- What a request is prepared for is what its parameters make the video from. A
video without images has a prompt. -/
theorem prepare_eq_ok {v : Vendor} {r : Request} {action : Action} {params : Params}
    (h : v.prepare r = .ok (action, params)) :
    params = v.normalize r ∧ action = params.imageMode.action ∧
      (params.imageMode = .textOnly → params.prompt.isSome = true) := by
  unfold prepare at h
  obtain ⟨requested, -, h⟩ := bind_eq_ok_iff.mp h
  split at h
  · obtain ⟨made, hmade, h⟩ := bind_eq_ok_iff.mp h
    cases h
    unfold Params.validate at hmade
    split at hmade
    · cases hmade
    · next hprompt =>
      cases hmade
      refine ⟨rfl, rfl, fun htext => ?_⟩
      simpa [htext, ImageMode.action, Option.isSome_iff_ne_none] using hprompt
  · cases h

theorem prepare_of_validate {v : Vendor} {r : Request} {requested action : Action}
    (hrequest : r.validate = .ok requested) (hsupported : requested ∈ v.supportedActions)
    (hparams : (v.normalize r).validate = .ok action) :
    v.prepare r = .ok (action, v.normalize r) := by
  simp only [prepare, hrequest, ok_bind, if_pos (List.contains_iff_mem.mpr hsupported), hparams]
  rfl

/-- Parameters that a vendor is asked for. -/
structure Prepared (v : Vendor) (p : Params) : Prop where
  within : ∃ d ∈ v.capabilities.descriptors, ∃ metadata, p.Within d metadata
  extras_sorted : Json.Members.Sorted p.extras
  prompt : p.imageMode = .textOnly → p.prompt.isSome = true

theorem prepared_of_prepare {v : Vendor} {r : Request} {action : Action} {p : Params}
    (h : v.prepare r = .ok (action, p)) : v.Prepared p := by
  obtain ⟨rfl, -, hprompt⟩ := prepare_eq_ok h
  exact ⟨⟨_, v.capabilities.descriptor_mem r.model, r.metadata, v.normalize_within r⟩,
    Json.Members.ofList_sorted _, hprompt⟩

end Vendor

namespace Doubao

/-- The members of a payload apart from forwarded metadata. -/
def stated (p : Params) : List (String × Json) :=
  [("model", .str p.model), ("content", .arr (content p)), ("duration", .nat p.duration),
    ("resolution", .str p.resolution)] ++
  Params.entry "ratio" .str p.ratio ++
  Params.entry "seed" .int p.seed ++
  Params.entry "generate_audio" .bool p.generateAudio ++
  Params.entry "cfg_scale" .real p.cfgScale ++
  Params.entry "fps" .nat p.fps

def statedKeys : List String :=
  ["model", "content", "duration", "resolution", "ratio", "seed", "generate_audio", "cfg_scale",
    "fps"]

theorem payload_eq (p : Params) : payload p = .object (stated p ++ p.extras) := by
  simp [payload, stated]

def text? (item : Json) : Option String :=
  (item.member? "text").bind Json.str?

/-- The address of an image that stands for a role. -/
def image? (role : String) (item : Json) : Option String :=
  if (item.member? "role").bind Json.str? = some role then
    ((item.member? "image_url").bind (Json.member? · "url")).bind Json.str?
  else none

theorem text?_textItem (s : String) : text? (textItem s) = some s := by
  simp [text?, textItem, Json.member?_object, Json.str?]

theorem text?_imageItem (role url : String) : text? (imageItem role url) = none := by
  simp [text?, imageItem, Json.member?_object, List.lookup_cons]

theorem image?_textItem (role s : String) : image? role (textItem s) = none := by
  simp [image?, textItem, Json.member?_object, List.lookup_cons]

theorem image?_imageItem (role role' url : String) :
    image? role (imageItem role' url) = if role' = role then some url else none := by
  simp [image?, imageItem, Json.member?_object, List.lookup_cons, Json.str?]

theorem filterMap_text?_content (p : Params) :
    (content p).filterMap text? = p.prompt.toList := by
  simp [content, List.filterMap_map, text?_textItem, text?_imageItem]

theorem filterMap_image?_content (role : String) (p : Params) :
    (content p).filterMap (image? role) =
      (if "first_frame" = role then p.imageMode.firstFrame?.toList else []) ++
      (if "last_frame" = role then p.imageMode.lastFrame?.toList else []) ++
      if "reference_image" = role then p.imageMode.referenceImages else [] := by
  have hrole : ∀ role' urls, List.filterMap (fun url => image? role (imageItem role' url)) urls =
      if role' = role then urls else [] := by
    intro role' urls
    split <;> simp [image?_imageItem, *]
  simp [content, List.filterMap_map, image?_textItem, hrole]

variable {p q : Params} {d d' : Descriptor} {metadata metadata' : Json.Members}

theorem content_injective (hp : p.imageMode.Within d) (hq : q.imageMode.Within d')
    (h : content p = content q) : p.prompt = q.prompt ∧ p.imageMode = q.imageMode := by
  have toList_injective {a b : Option String} (h : a.toList = b.toList) : a = b := by
    simpa using congrArg List.head? h
  have hprompt : p.prompt.toList = q.prompt.toList := by
    rw [← filterMap_text?_content, h, filterMap_text?_content]
  have himage : ∀ role, (content p).filterMap (image? role) = (content q).filterMap (image? role) :=
    fun role => by rw [h]
  have hfirst := himage "first_frame"
  have hlast := himage "last_frame"
  have hreferences := himage "reference_image"
  simp only [filterMap_image?_content, String.reduceEq, ↓reduceIte, List.append_nil,
    List.nil_append] at hfirst hlast hreferences
  refine ⟨toList_injective hprompt, ?_⟩
  rw [hp.eq_ofParts, hq.eq_ofParts, toList_injective hfirst, toList_injective hlast, hreferences]

theorem params_eq (hp : p.Within d metadata) (hq : q.Within d' metadata')
    (hextras : p.extras = q.extras) (h : Json.object (stated p) = .object (stated q)) :
    p = q := by
  have hmember := Json.lookup_eq_of_object_eq h
  simp only [stated, List.reverse_append, List.lookup_append, Params.reverse_entry,
    Params.lookup_entry] at hmember
  have hcontent : content p = content q := by simpa [List.lookup_cons] using hmember "content"
  obtain ⟨hprompt, himages⟩ := content_injective hp.imageMode hq.imageMode hcontent
  have hcfg : p.cfgScale.map Json.real = q.cfgScale.map Json.real := by
    simpa [List.lookup_cons] using hmember "cfg_scale"
  ext1
  case model => simpa [List.lookup_cons] using hmember "model"
  case prompt => exact hprompt
  case duration => simpa [List.lookup_cons, Json.nat_inj] using hmember "duration"
  case resolution => simpa [List.lookup_cons] using hmember "resolution"
  case ratio => simpa [List.lookup_cons, Json.map_str_inj] using hmember "ratio"
  case seed => simpa [List.lookup_cons, Json.map_int_inj] using hmember "seed"
  case imageMode => exact himages
  case generateAudio => simpa [List.lookup_cons, Json.map_bool_inj] using hmember "generate_audio"
  case cfgScale => exact (Json.map_real_inj hp.cfgScale_isFinite hq.cfgScale_isFinite).mp hcfg
  case fps => simpa [List.lookup_cons, Json.map_nat_inj] using hmember "fps"
  case extras => exact hextras

end Doubao

namespace Hailuo

def subject? : List String → Option Json
  | [] => none
  | image :: images =>
    some (.arr [.object [("type", .str "character"), ("image", .arr ((image :: images).map .str))]])

theorem subjects_eq (images : List String) :
    subjects images = Params.entry "subject_reference" id (subject? images) := by
  cases images <;> rfl

theorem subject?_injective : Function.Injective subject? := by
  have hmembers : ∀ {xs ys : List String},
      Json.object [("type", .str "character"), ("image", .arr (xs.map .str))] =
        .object [("type", .str "character"), ("image", .arr (ys.map .str))] → xs = ys := by
    intro xs ys h
    have himages := congrArg (Json.member? · "image") h
    simp only [Json.member?_object] at himages
    refine (List.map_injective_iff.mpr fun _ _ => Json.str.inj) ?_
    simpa using himages
  intro xs ys h
  cases xs with
  | nil =>
    cases ys with
    | nil => rfl
    | cons y ys => cases h
  | cons x xs =>
    cases ys with
    | nil => cases h
    | cons y ys =>
      simp only [subject?, Option.some.injEq, Json.arr.injEq, List.cons.injEq, and_true] at h
      exact hmembers h

def stated (p : Params) : List (String × Json) :=
  [("model", .str p.model)] ++
  Params.entry "prompt" .str p.prompt ++
  [("duration", .nat p.duration), ("resolution", .str p.resolution)] ++
  Params.entry "first_frame_image" .str p.imageMode.firstFrame? ++
  Params.entry "last_frame_image" .str p.imageMode.lastFrame? ++
  subjects p.imageMode.referenceImages

def statedKeys : List String :=
  ["model", "prompt", "duration", "resolution", "first_frame_image", "last_frame_image",
    "subject_reference"]

theorem payload_eq (p : Params) : payload p = .object (stated p ++ p.extras) := by
  simp [payload, stated]

theorem descriptors_eq_none {d : Descriptor} (hd : d ∈ CapabilityTable.hailuo.descriptors) :
    d.defaultRatio = none ∧ d.seedRange = none ∧ d.audio = false ∧ d.cfgScale = false ∧
      d.fps = false := by
  revert d
  decide

variable {p q : Params} {d d' : Descriptor} {metadata metadata' : Json.Members}

theorem within_eq_none (hd : d ∈ CapabilityTable.hailuo.descriptors) (hp : p.Within d metadata) :
    p.ratio = none ∧ p.seed = none ∧ p.generateAudio = none ∧ p.cfgScale = none ∧ p.fps = none := by
  obtain ⟨hratio, hseed, haudio, hcfg, hfps⟩ := descriptors_eq_none hd
  exact ⟨hp.ratio_eq_none_iff.mpr hratio, hp.eq_none hseed haudio hcfg hfps⟩

theorem params_eq (hd : d ∈ CapabilityTable.hailuo.descriptors) (hp : p.Within d metadata)
    (hd' : d' ∈ CapabilityTable.hailuo.descriptors) (hq : q.Within d' metadata')
    (hextras : p.extras = q.extras) (h : Json.object (stated p) = .object (stated q)) :
    p = q := by
  have hmember := Json.lookup_eq_of_object_eq h
  simp only [stated, subjects_eq, List.reverse_append, List.lookup_append, Params.reverse_entry,
    Params.lookup_entry, Option.map_id] at hmember
  have hfirst : p.imageMode.firstFrame? = q.imageMode.firstFrame? := by
    simpa [List.lookup_cons, Json.map_str_inj] using hmember "first_frame_image"
  have hlast : p.imageMode.lastFrame? = q.imageMode.lastFrame? := by
    simpa [List.lookup_cons, Json.map_str_inj] using hmember "last_frame_image"
  have hreferences : p.imageMode.referenceImages = q.imageMode.referenceImages := by
    refine subject?_injective ?_
    simpa [List.lookup_cons] using hmember "subject_reference"
  obtain ⟨hratio, hseed, haudio, hcfg, hfps⟩ := within_eq_none hd hp
  obtain ⟨hratio', hseed', haudio', hcfg', hfps'⟩ := within_eq_none hd' hq
  ext1
  case model => simpa [List.lookup_cons] using hmember "model"
  case prompt => simpa [List.lookup_cons, Json.map_str_inj] using hmember "prompt"
  case duration => simpa [List.lookup_cons, Json.nat_inj] using hmember "duration"
  case resolution => simpa [List.lookup_cons] using hmember "resolution"
  case ratio => rw [hratio, hratio']
  case seed => rw [hseed, hseed']
  case imageMode =>
    rw [hp.imageMode.eq_ofParts, hq.imageMode.eq_ofParts, hfirst, hlast, hreferences]
  case generateAudio => rw [haudio, haudio']
  case cfgScale => rw [hcfg, hcfg']
  case fps => rw [hfps, hfps']
  case extras => exact hextras

end Hailuo

namespace OpenAi

def stated (p : Params) : List (String × Json) :=
  [("model", .str p.model)] ++
  Params.entry "prompt" .str p.prompt ++
  [("seconds", .str (Text.natText p.duration)), ("size", .str (size p.resolution p.ratio))]

def statedKeys : List String :=
  ["model", "prompt", "seconds", "size"]

theorem size_injective : ∀ resolution ∈ ["720p", "1024p"], ∀ ratio ∈ ["16:9", "9:16"],
    ∀ resolution' ∈ ["720p", "1024p"], ∀ ratio' ∈ ["16:9", "9:16"],
    size resolution (some ratio) = size resolution' (some ratio') →
      resolution = resolution' ∧ ratio = ratio' := by
  decide

theorem descriptors_limits {d : Descriptor} (hd : d ∈ CapabilityTable.openAi.descriptors) :
    (d.resolutions ⊆ ["720p", "1024p"] ∧ d.ratios = ["16:9", "9:16"] ∧ d.defaultRatio ≠ none) ∧
      (d.seedRange = none ∧ d.audio = false ∧ d.cfgScale = false ∧ d.fps = false) ∧
      d.firstFrame = false ∧ d.lastFrame = false ∧ d.referenceImages = false := by
  revert d
  decide

theorem passthroughKeys_eq_nil {d : Descriptor} (hd : d ∈ CapabilityTable.openAi.descriptors) :
    d.passthroughKeys = [] := by
  revert d
  decide

variable {p q : Params} {d d' : Descriptor} {metadata metadata' : Json.Members}

/-- What a request that is made from a prompt alone comes down to. -/
theorem within_limits (hd : d ∈ CapabilityTable.openAi.descriptors) (hp : p.Within d metadata) :
    p.imageMode = .textOnly ∧ p.resolution ∈ ["720p", "1024p"] ∧
      (∃ ratio ∈ ["16:9", "9:16"], p.ratio = some ratio) ∧
      p.seed = none ∧ p.generateAudio = none ∧ p.cfgScale = none ∧ p.fps = none := by
  obtain ⟨⟨hresolutions, hratios, hdefault⟩, ⟨hseed, haudio, hcfg, hfps⟩, hfirst, hlast,
    hreferences⟩ := descriptors_limits hd
  refine ⟨hp.imageMode.eq_textOnly hfirst hlast hreferences, hresolutions hp.resolution, ?_,
    hp.eq_none hseed haudio hcfg hfps⟩
  obtain ⟨ratio, hratio⟩ := Option.ne_none_iff_exists'.mp (mt hp.ratio_eq_none_iff.mp hdefault)
  exact ⟨ratio, hratios ▸ hp.ratio ratio hratio, hratio⟩

theorem params_eq (hd : d ∈ CapabilityTable.openAi.descriptors) (hp : p.Within d metadata)
    (hd' : d' ∈ CapabilityTable.openAi.descriptors) (hq : q.Within d' metadata')
    (hextras : p.extras = q.extras) (h : Json.object (stated p) = .object (stated q)) :
    p = q := by
  have hmember := Json.lookup_eq_of_object_eq h
  simp only [stated, List.reverse_append, List.lookup_append, Params.reverse_entry,
    Params.lookup_entry] at hmember
  obtain ⟨himages, hresolution, ⟨ratio, hmem, hratio⟩, hseed, haudio, hcfg, hfps⟩ :=
    within_limits hd hp
  obtain ⟨himages', hresolution', ⟨ratio', hmem', hratio'⟩, hseed', haudio', hcfg', hfps'⟩ :=
    within_limits hd' hq
  have hsize : size p.resolution (some ratio) = size q.resolution (some ratio') := by
    rw [← hratio, ← hratio']
    simpa [List.lookup_cons] using hmember "size"
  obtain ⟨hsame, rfl⟩ := size_injective _ hresolution _ hmem _ hresolution' _ hmem' hsize
  ext1
  case model => simpa [List.lookup_cons] using hmember "model"
  case prompt => simpa [List.lookup_cons, Json.map_str_inj] using hmember "prompt"
  case duration =>
    refine Text.natText_injective ?_
    simpa [List.lookup_cons] using hmember "seconds"
  case resolution => exact hsame
  case ratio => rw [hratio, hratio']
  case seed => rw [hseed, hseed']
  case imageMode => rw [himages, himages']
  case generateAudio => rw [haudio, haudio']
  case cfgScale => rw [hcfg, hcfg']
  case fps => rw [hfps, hfps']
  case extras => exact hextras

end OpenAi

namespace Vendor

/-- The members of a payload apart from forwarded metadata. -/
def stated : Vendor → Params → List (String × Json)
  | .doubao => Doubao.stated
  | .hailuo => Hailuo.stated
  | .openAi => OpenAi.stated

def statedKeys : Vendor → List String
  | .doubao => Doubao.statedKeys
  | .hailuo => Hailuo.statedKeys
  | .openAi => OpenAi.statedKeys

variable {v : Vendor} {p q : Params}

theorem stated_keys_subset (v : Vendor) (p : Params) :
    (v.stated p).map Prod.fst ⊆ v.statedKeys := by
  have hentry : ∀ {α : Type} {toJson : α → Json} {value : Option α} {name : String}
      {keys : List String}, name ∈ keys → (Params.entry name toJson value).map Prod.fst ⊆ keys := by
    intro α toJson value name keys hname
    cases value with
    | none => exact List.nil_subset _
    | some a => simpa [Params.entry] using hname
  cases v with
  | doubao => simp [stated, Doubao.stated, statedKeys, Doubao.statedKeys, hentry]
  | hailuo =>
    simp [stated, Hailuo.stated, Hailuo.subjects_eq, statedKeys, Hailuo.statedKeys, hentry]
  | openAi => simp [stated, OpenAi.stated, statedKeys, OpenAi.statedKeys, hentry]

theorem fst_mem_statedKeys (v : Vendor) (p : Params) : ∀ m ∈ v.stated p, m.1 ∈ v.statedKeys :=
  fun _ hm => v.stated_keys_subset p (List.mem_map_of_mem hm)

theorem stated_without_extras (v : Vendor) (p : Params) :
    v.stated { p with extras := [] } = v.stated p := by
  cases v <;> rfl

/-- No metadata is forwarded under the key of a parameter. -/
theorem passthroughKeys_free (v : Vendor) : ∀ d ∈ v.capabilities.descriptors,
    ∀ key ∈ d.passthroughKeys, key ∉ v.statedKeys := by
  cases v <;> decide

namespace Prepared

theorem extras_free (h : v.Prepared p) : ∀ m ∈ p.extras, m.1 ∉ v.statedKeys := by
  obtain ⟨d, hd, metadata, hwithin⟩ := h.within
  exact fun m hm => v.passthroughKeys_free d hd m.1 (hwithin.extras m hm).1

theorem without_extras (h : v.Prepared p) : v.Prepared { p with extras := [] } := by
  obtain ⟨d, hd, metadata, hwithin⟩ := h.within
  exact ⟨⟨d, hd, [], { hwithin with extras := nofun, passthrough := nofun }⟩, .nil, h.prompt⟩

theorem payload_eq (h : v.Prepared p) : v.payload p = .ok (.object (v.stated p ++ p.extras)) := by
  cases v with
  | doubao => exact congrArg Except.ok (Doubao.payload_eq p)
  | hailuo => exact congrArg Except.ok (Hailuo.payload_eq p)
  | openAi =>
    obtain ⟨d, hd, metadata, hwithin⟩ := h.within
    obtain ⟨prompt, hprompt⟩ := Option.isSome_iff_exists.mp
      (h.prompt (OpenAi.within_limits hd hwithin).1)
    have hextras : p.extras = [] := by
      refine List.eq_nil_iff_forall_not_mem.mpr fun m hm => ?_
      have hkey := (hwithin.extras m hm).1
      simp [OpenAi.passthroughKeys_eq_nil hd] at hkey
    simp [payload, stated, OpenAi.payload, OpenAi.stated, Params.entry, hprompt, hextras]

theorem params_eq (hp : v.Prepared p) (hq : v.Prepared q) (hextras : p.extras = q.extras)
    (h : Json.object (v.stated p) = .object (v.stated q)) : p = q := by
  obtain ⟨d, hd, metadata, hwithin⟩ := hp.within
  obtain ⟨d', hd', metadata', hwithin'⟩ := hq.within
  cases v with
  | doubao => exact Doubao.params_eq hwithin hwithin' hextras h
  | hailuo => exact Hailuo.params_eq hd hwithin hd' hwithin' hextras h
  | openAi => exact OpenAi.params_eq hd hwithin hd' hwithin' hextras h

end Prepared

/-- A prepared request is put in words that show each of its parameters, which no
forwarded metadata replaces or hides. So two requests that are put in the same
words are made with the same parameters, from the same kind of input and at the
same price. -/
theorem payload_determines_params {r s : Request} {a b : Action} (hp : v.prepare r = .ok (a, p))
    (hq : v.prepare s = .ok (b, q)) :
    (∃ bare full, v.payload { p with extras := [] } = .ok bare ∧ v.payload p = .ok full ∧
      ∀ key value, bare.member? key = some value → full.member? key = some value) ∧
    (v.payload p = v.payload q →
      p = q ∧ a = b ∧ p.billing = q.billing ∧
        ∀ rules : PriceRules, rules.ratio p.model p.billing = rules.ratio q.model q.billing) := by
  obtain ⟨-, rfl, -⟩ := prepare_eq_ok hp
  obtain ⟨-, rfl, -⟩ := prepare_eq_ok hq
  have hp := prepared_of_prepare hp
  have hq := prepared_of_prepare hq
  constructor
  · refine ⟨_, _, hp.without_extras.payload_eq, hp.payload_eq, fun key value hmember => ?_⟩
    have hkey : key ∈ v.statedKeys := by
      by_contra hkey
      have hnone : (Json.object (v.stated p)).member? key = none :=
        Json.member?_object_eq_none fun m hm heq => hkey (heq ▸ v.fst_mem_statedKeys p m hm)
      rw [List.append_nil, v.stated_without_extras, hnone] at hmember
      cases hmember
    rwa [Json.member?_object_append_of_mem hp.extras_sorted hp.extras_free hkey,
      ← v.stated_without_extras, ← List.append_nil (v.stated _)]
  · intro hpayload
    rw [hp.payload_eq, hq.payload_eq, Except.ok.injEq] at hpayload
    -- The keys tell the members that stand for parameters from the forwarded ones.
    obtain ⟨hstated, hextras⟩ := Json.object_append_inj hp.extras_sorted hq.extras_sorted
      (v.fst_mem_statedKeys p) (v.fst_mem_statedKeys q) hp.extras_free hq.extras_free hpayload
    obtain rfl := hp.params_eq hq hextras hstated
    exact ⟨rfl, rfl, rfl, fun _ => rfl⟩

/-- Two requests for one resolution, by its name and by a size in pixels. -/
theorem sized_payload_determines_params :
    let named := Request.sample
    let sized := { Request.sample with resolution := none, size := some "1280x720" }
    named ≠ sized ∧ doubao.normalize named = doubao.normalize sized := by
  intro named sized
  have hnamed : doubao.prepare named = .ok (.textToVideo, doubao.normalize named) :=
    prepare_of_validate (show named.validate = .ok .textToVideo by decide +kernel) (by decide)
      (by decide +kernel)
  have hsized : doubao.prepare sized = .ok (.textToVideo, doubao.normalize sized) :=
    prepare_of_validate (show sized.validate = .ok .textToVideo by decide +kernel) (by decide)
      (by decide +kernel)
  have hpayload : doubao.payload (doubao.normalize named) =
      doubao.payload (doubao.normalize sized) := by
    refine congrArg doubao.payload ?_
    ext1
    case extras => rfl
    all_goals decide +kernel
  refine ⟨?_, ((payload_determines_params hnamed hsized).2 hpayload).1⟩
  simp [named, sized, Request.sample]

end Vendor

end VideoGateway

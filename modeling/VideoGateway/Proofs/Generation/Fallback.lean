import VideoGateway.Proofs.Vendor.Acceptance

/-!
# What metadata may say

Each parameter is asked for by fields of its own, or else under some keys of the
metadata. A request comes down to what it asks for in this way, what no metadata
stands in for, and the metadata that is forwarded: two requests that agree on
these are reconciled to the same parameters. So metadata under other keys has no
influence, nor has it under the keys of a parameter that a field asks for.
-/
namespace VideoGateway

/-- A parameter that metadata can ask for. -/
inductive Parameter where
  | duration
  | resolution
  | ratio
  | seed
  | firstFrame
  | lastFrame
  | generateAudio
  | cfgScale
  | fps
deriving DecidableEq, Repr

namespace Parameter

/-- What a parameter is asked for with. -/
abbrev Value : Parameter → Type
  | .duration | .seed | .fps => Int
  | .resolution | .ratio | .firstFrame | .lastFrame => String
  | .generateAudio => Bool
  | .cfgScale => Binary64

/-- The metadata keys of a parameter; the first one that can be read counts. -/
def keys : Parameter → List String
  | .duration => ["duration"]
  | .resolution => ["resolution"]
  | .ratio => ["ratio", "aspect_ratio"]
  | .seed => ["seed"]
  | .firstFrame => ["first_frame_image", "first_frame"]
  | .lastFrame => ["last_frame_image", "last_frame"]
  | .generateAudio => ["generate_audio"]
  | .cfgScale => ["cfg_scale"]
  | .fps => ["fps"]

def read : (p : Parameter) → Json → Option p.Value
  | .duration | .seed | .fps => Metadata.int?
  | .resolution | .ratio | .firstFrame | .lastFrame => Metadata.text?
  | .generateAudio => Metadata.bool?
  | .cfgScale => Metadata.real?

/-- What the fields of a request ask for. A size asks for a resolution and a ratio
where these are not given themselves. -/
def stated? : (p : Parameter) → Request → Option p.Value
  | .duration, r => r.duration
  | .resolution, r => r.resolution.bind Text.nonBlank? <|> r.size.bind Text.nonBlank?
  | .ratio, r => r.aspectRatio.bind Text.nonBlank? <|> r.size.bind Size.ratio?
  | .seed, r => r.seed
  | .firstFrame, r => r.firstFrame.bind Text.nonBlank?
  | .lastFrame, r => r.lastFrame.bind Text.nonBlank?
  | .generateAudio, r => r.generateAudio
  | .cfgScale, r => r.cfgScale
  | .fps, r => r.fps

/-- What a request asks for, in its fields or else in its metadata. -/
def asked? (p : Parameter) (r : Request) : Option p.Value :=
  p.stated? r <|> p.keys.findSome? fun key => Effective.fromMetadata? r key p.read

/-- Whether a field asks for the parameter, be it for something that the model does
not support. -/
def told : Parameter → Request → Bool
  | .duration, r => r.duration.isSome
  | .resolution, r => Request.given r.resolution || Request.given r.size
  | .ratio, r => Request.given r.aspectRatio || (r.size.bind Size.ratio?).isSome
  | .seed, r => r.seed.isSome
  | .firstFrame, r => Request.given r.firstFrame
  | .lastFrame, r => Request.given r.lastFrame
  | .generateAudio, r => r.generateAudio.isSome
  | .cfgScale, r => r.cfgScale.isSome
  | .fps, r => r.fps.isSome

variable {p q : Parameter} {r s : Request} {key : String}

theorem findSome?_pair {α β : Type} (f : α → Option β) (a b : α) :
    [a, b].findSome? f = (f a).or (f b) := by
  cases h : f a <;> simp [h]

theorem findSome?_congr {α β : Type} {f g : α → Option β} {as : List α} (h : ∀ a ∈ as, f a = g a) :
    as.findSome? f = as.findSome? g := by
  rw [← List.head?_filterMap, ← List.head?_filterMap, List.filterMap_congr h]

/-- What a request asks for depends on its fields and on what its metadata says under
the keys of the parameter. -/
theorem asked?_congr (hstated : p.stated? r = p.stated? s) (hsaid : ∀ key ∈ p.keys,
      Effective.fromMetadata? r key p.read = Effective.fromMetadata? s key p.read) :
    p.asked? r = p.asked? s := by
  rw [asked?, hstated, findSome?_congr hsaid, ← asked?]

theorem asked?_of_unsaid
    (hunsaid : ∀ key ∈ p.keys, Effective.fromMetadata? r key p.read = none) :
    p.asked? r = p.stated? r := by
  rw [asked?, List.findSome?_eq_none_iff.mpr hunsaid]
  cases p.stated? r <;> rfl

theorem told_eq (p : Parameter) (r : Request) : p.told r = (p.stated? r).isSome := by
  cases p <;> simp [told, stated?, Request.given_eq_isSome]

theorem asked?_of_told (h : p.told r = true) : p.asked? r = p.stated? r := by
  rw [told_eq] at h
  obtain ⟨value, hvalue⟩ := Option.isSome_iff_exists.mp h
  rw [asked?, hvalue]
  rfl

theorem mem_fieldKeys_iff : key ∈ Effective.fieldKeys ↔ ∃ p : Parameter, key ∈ p.keys := by
  constructor
  · intro h
    simp only [Effective.fieldKeys, List.mem_cons, List.not_mem_nil, or_false] at h
    rcases h with rfl | rfl | rfl | rfl | rfl | rfl | rfl | rfl | rfl | rfl | rfl | rfl
    exacts [⟨.duration, by decide⟩, ⟨.resolution, by decide⟩, ⟨.ratio, by decide⟩,
      ⟨.ratio, by decide⟩, ⟨.seed, by decide⟩, ⟨.firstFrame, by decide⟩, ⟨.firstFrame, by decide⟩,
      ⟨.lastFrame, by decide⟩, ⟨.lastFrame, by decide⟩, ⟨.generateAudio, by decide⟩,
      ⟨.cfgScale, by decide⟩, ⟨.fps, by decide⟩]
  · rintro ⟨p, hp⟩
    revert key
    cases p <;> decide

theorem notMem_keys (h : p ≠ q) : ∀ key ∈ p.keys, key ∉ q.keys := by
  revert h
  cases p <;> cases q <;> decide

end Parameter

namespace Effective

variable (r : Request) (d : Descriptor)

theorem duration_eq : duration r d =
    (((Parameter.duration.asked? r).bind word?).filter d.supportsDuration).getD
      d.defaultDuration := by
  simp [duration, Parameter.asked?, Parameter.stated?, Parameter.keys, Parameter.read]

theorem resolution_eq : resolution r d =
    (((Parameter.resolution.asked? r).bind Size.resolution?).bind d.matchResolution?).getD
      d.defaultResolution := by
  simp [resolution, resolutionSource?, Parameter.asked?, Parameter.stated?, Parameter.keys,
    Parameter.read, Option.or_assoc]

theorem ratio_eq : ratio r d = d.defaultRatio.map fun default =>
    ((Parameter.ratio.asked? r).bind fun candidate =>
      d.matchRatio? (Text.trim candidate)).getD default := by
  simp [ratio, ratioSource?, Parameter.asked?, Parameter.stated?, Parameter.keys,
    Parameter.read, Parameter.findSome?_pair, Option.or_assoc]

theorem seed_eq : seed r d = (Parameter.seed.asked? r).filter d.acceptsSeed := by
  simp [seed, Parameter.asked?, Parameter.stated?, Parameter.keys, Parameter.read]

theorem firstFrame_eq :
    firstFrame r d = (Parameter.firstFrame.asked? r).filter fun _ => d.firstFrame := by
  simp [firstFrame, Parameter.asked?, Parameter.stated?, Parameter.keys, Parameter.read,
    Parameter.findSome?_pair]

theorem lastFrame_eq :
    lastFrame r d = (Parameter.lastFrame.asked? r).filter fun _ => d.lastFrame := by
  simp [lastFrame, Parameter.asked?, Parameter.stated?, Parameter.keys, Parameter.read,
    Parameter.findSome?_pair]

theorem generateAudio_eq :
    generateAudio r d = if d.audio then Parameter.generateAudio.asked? r else none := by
  simp [generateAudio, Parameter.asked?, Parameter.stated?, Parameter.keys, Parameter.read]

theorem cfgScale_eq : cfgScale r d = if d.cfgScale then
    (Parameter.cfgScale.asked? r).filter fun x =>
      leastCfgScale.le x && x.le greatestCfgScale else none := by
  simp [cfgScale, Parameter.asked?, Parameter.stated?, Parameter.keys, Parameter.read]

theorem fps_eq : fps r d = if d.fps then
    ((Parameter.fps.asked? r).bind word?).filter fun n =>
      leastFps ≤ n && n ≤ greatestFps else none := by
  simp [fps, Parameter.asked?, Parameter.stated?, Parameter.keys, Parameter.read]

end Effective

namespace Request

variable {r s : Request} {d : Descriptor} {keys : List String} {m : Json.Members}

/-- Two requests that come to the same for a model that forwards the metadata under
some keys: they may ask for a parameter in different places. -/
structure SameFor (keys : List String) (r s : Request) : Prop where
  model : r.model = s.model
  prompt : r.prompt = s.prompt
  images : r.images = s.images
  asked : ∀ p : Parameter, p.asked? r = p.asked? s
  forwarded : ∀ key ∈ keys, r.metadata.get? key = s.metadata.get? key

namespace SameFor

theorem imageMode (h : SameFor keys r s) (d : Descriptor) :
    Effective.imageMode r d = Effective.imageMode s d := by
  have hfirst : Effective.firstFrame r d = Effective.firstFrame s d := by
    rw [Effective.firstFrame_eq, h.asked, ← Effective.firstFrame_eq]
  have hlast : Effective.lastFrame r d = Effective.lastFrame s d := by
    rw [Effective.lastFrame_eq, h.asked, ← Effective.lastFrame_eq]
  have hreferences : Effective.references r d = Effective.references s d := by
    rw [Effective.references, h.images, ← Effective.references]
  rw [Effective.imageMode, hfirst, hlast, hreferences, ← Effective.imageMode]

theorem extras (h : SameFor d.passthroughKeys r s) : Effective.extras r d = Effective.extras s d := by
  refine congrArg Json.Members.ofList (List.filterMap_congr fun key hkey => ?_)
  rw [h.forwarded key hkey]

theorem normalize (h : SameFor d.passthroughKeys r s) : r.normalize d = s.normalize d := by
  have hduration : Effective.duration r d = Effective.duration s d := by
    rw [Effective.duration_eq, h.asked, ← Effective.duration_eq]
  have hresolution : Effective.resolution r d = Effective.resolution s d := by
    rw [Effective.resolution_eq, h.asked, ← Effective.resolution_eq]
  ext1
  case model => exact h.model
  case prompt => exact congrArg (·.bind Text.nonBlank?) h.prompt
  case duration => exact congrArg₂ d.capDuration hresolution hduration
  case resolution => exact hresolution
  case ratio =>
    show Effective.ratio r d = Effective.ratio s d
    rw [Effective.ratio_eq, h.asked, ← Effective.ratio_eq]
  case seed =>
    show Effective.seed r d = Effective.seed s d
    rw [Effective.seed_eq, h.asked, ← Effective.seed_eq]
  case imageMode => exact h.imageMode d
  case generateAudio =>
    show Effective.generateAudio r d = Effective.generateAudio s d
    rw [Effective.generateAudio_eq, h.asked, ← Effective.generateAudio_eq]
  case cfgScale =>
    show Effective.cfgScale r d = Effective.cfgScale s d
    rw [Effective.cfgScale_eq, h.asked, ← Effective.cfgScale_eq]
  case fps =>
    show Effective.fps r d = Effective.fps s d
    rw [Effective.fps_eq, h.asked, ← Effective.fps_eq]
  case extras => exact h.extras

end SameFor

/-- What metadata says under the keys of a parameter counts only where no field asks
for it. -/
theorem asked?_withMetadata {p : Parameter}
    (h : p.told r = false → ∀ key ∈ p.keys, m.get? key = r.metadata.get? key) :
    p.asked? { r with metadata := m } = p.asked? r := by
  have htold : p.told { r with metadata := m } = p.told r := by cases p <;> rfl
  have hstated : p.stated? { r with metadata := m } = p.stated? r := by cases p <;> rfl
  cases hfields : p.told r with
  | true => rw [Parameter.asked?_of_told (htold.trans hfields), hstated,
      Parameter.asked?_of_told hfields]
  | false =>
    apply Parameter.asked?_congr hstated
    intro key hkey
    exact congrArg (·.bind p.read) (h hfields key hkey)

/-- Metadata has no influence apart from what is forwarded and what stands in for a
parameter that no field asks for. -/
theorem normalize_withMetadata
    (hforwarded : ∀ key ∈ d.passthroughKeys, m.get? key = r.metadata.get? key)
    (hasked : ∀ p : Parameter, p.told r = false → ∀ key ∈ p.keys,
      m.get? key = r.metadata.get? key) :
    { r with metadata := m }.normalize d = r.normalize d := by
  have hsame : SameFor d.passthroughKeys { r with metadata := m } r := {
    model := rfl
    prompt := rfl
    images := rfl
    asked := fun p => asked?_withMetadata (hasked p)
    forwarded := hforwarded }
  exact hsame.normalize

/-- Requests that differ in their metadata alone are reconciled to the same
parameters if they agree on the keys that are forwarded and on those that stand in
for parameters. The keys of a parameter that a field asks for do not count among
these, unless they are forwarded, which no vendor does. -/
theorem normalize_metadata_confined (d : Descriptor) (r : Request) (m : Json.Members) :
    ((∀ key ∈ d.passthroughKeys ++ Effective.fieldKeys, m.get? key = r.metadata.get? key) →
      { r with metadata := m }.normalize d = r.normalize d) ∧
    ((∀ key ∈ d.passthroughKeys, key ∉ Effective.fieldKeys) →
      (∀ key ∈ d.passthroughKeys ++ Effective.fieldKeys,
        (∀ p : Parameter, p.told r = true → key ∉ p.keys) → m.get? key = r.metadata.get? key) →
      { r with metadata := m }.normalize d = r.normalize d) ∧
    ∀ (v : Vendor) (model : String), ∀ key ∈ (v.capabilities.descriptor model).passthroughKeys,
      key ∉ Effective.fieldKeys := by
  refine ⟨fun hagree => ?_, fun hdisjoint hagree => ?_, fun v model => ?_⟩
  · apply normalize_withMetadata
    · exact fun key hkey => hagree key (List.mem_append_left _ hkey)
    · exact fun p _ key hkey =>
        hagree key (List.mem_append_right _ (Parameter.mem_fieldKeys_iff.mpr ⟨p, hkey⟩))
  · apply normalize_withMetadata
    · intro key hkey
      refine hagree key (List.mem_append_left _ hkey) fun p _ hp => ?_
      exact hdisjoint key hkey (Parameter.mem_fieldKeys_iff.mpr ⟨p, hp⟩)
    · intro p htold key hkey
      refine hagree key (List.mem_append_right _ (Parameter.mem_fieldKeys_iff.mpr ⟨p, hkey⟩)) ?_
      -- A key of this parameter is not one of another that a field asks for.
      intro q hq
      exact Parameter.notMem_keys (fun heq => by simp [heq, hq] at htold) key hkey
  · exact (v.capabilities_readsBack _ (v.capabilities.descriptor_mem model)).passthrough

/-- A resolution that the model does not support, with others in the metadata. -/
theorem spareMetadata_confined :
    let stated := { sample with resolution := some "4320p", metadata := [("resolution", .str "480p")] }
    Parameter.resolution.told stated = true ∧
      { stated with metadata := [("note", .null), ("resolution", .str "480p")] }.normalize
        CapabilityTable.Doubao.base = stated.normalize CapabilityTable.Doubao.base ∧
      { stated with metadata := [("resolution", .str "720p")] }.normalize
        CapabilityTable.Doubao.base = stated.normalize CapabilityTable.Doubao.base := by
  intro stated
  refine ⟨by decide, ?_, ?_⟩
  · apply (normalize_metadata_confined CapabilityTable.Doubao.base stated _).1
    intro key hkey
    have hnote : (key == "note") = false := by
      rw [beq_eq_false_iff_ne]
      rintro rfl
      exact absurd hkey (by decide)
    simp [stated, Json.Members.get?, List.lookup_cons, hnote]
  · apply (normalize_metadata_confined CapabilityTable.Doubao.base stated _).2.1 (by decide)
    intro key _ hfree
    have hkey : (key == "resolution") = false := by
      rw [beq_eq_false_iff_ne]
      rintro rfl
      exact hfree .resolution (by decide) (by decide)
    simp [stated, Json.Members.get?, List.lookup_cons, hkey]

end Request

end VideoGateway

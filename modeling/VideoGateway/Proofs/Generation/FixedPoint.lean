import Mathlib.Data.List.DropRight
import VideoGateway.Proofs.Vendor.Payload

/-!
# Reconciling twice

Reconciled parameters can be asked for again, each in its own field. They are
within the capabilities already and their texts are trimmed, and such parameters
are a fixed point: reconciling the second request gives them back unchanged. For
this the model's own spellings must be read as themselves, and nothing that it
forwards may be a key that stands in for a field.
-/
namespace VideoGateway

namespace Text

/-- A text without blanks at its ends has something left of it. -/
def Trimmed (s : String) : Prop :=
  nonBlank? s = some s

theorem dropBoth_dropBoth (p : Char → Bool) (cs : List Char) :
    dropBoth p (dropBoth p cs) = dropBoth p cs := by
  have hfront : (dropBoth p cs).dropWhile p = dropBoth p cs := by
    -- What is left begins as `cs.dropWhile p` does, if it is not empty.
    rw [List.dropWhile_eq_self_iff]
    intro hlength
    have hstart : dropBoth p cs <+: cs.dropWhile p := List.rdropWhile_prefix p _
    rw [hstart.getElem hlength]
    exact List.dropWhile_get_zero_not p cs _
  unfold dropBoth at hfront ⊢
  rw [hfront]
  exact List.rdropWhile_idempotent p _

theorem trim_trim (s : String) : trim (trim s) = trim s := by
  simp only [trim, String.toList_ofList, dropBoth_dropBoth]

theorem nonBlank?_trimmed {s t : String} (h : nonBlank? s = some t) : Trimmed t := by
  have hsome := isBlankText_of_nonBlank? h
  unfold nonBlank? at h
  split at h
  · cases h
  · cases h
    rw [Trimmed, nonBlank?, hsome, trim_trim]
    rfl

theorem Trimmed.trim_eq {s : String} (h : Trimmed s) : trim s = s := by
  unfold Trimmed nonBlank? at h
  split at h
  · cases h
  · exact Option.some.inj h

theorem bind_nonBlank?_eq_self {s : Option String} (h : ∀ t ∈ s, Trimmed t) :
    s.bind nonBlank? = s := by
  cases s with
  | none => rfl
  | some t => exact h t rfl

theorem filterMap_nonBlank?_eq_self {ss : List String} (h : ∀ s ∈ ss, Trimmed s) :
    ss.filterMap nonBlank? = ss := by
  induction ss with
  | nil => rfl
  | cons s ss ih =>
    rw [List.filterMap_cons, h s List.mem_cons_self, ih fun t ht => h t (.tail s ht)]

end Text

namespace ImageMode

def urls : ImageMode → List String
  | .textOnly => []
  | .frames first last => first.toList ++ last.toList
  | .reference images => images

variable {d : Descriptor} {m : ImageMode} {url : String}

theorem mem_urls_of_firstFrame (h : url ∈ m.firstFrame?) : url ∈ m.urls := by
  cases m with
  | frames first last => exact List.mem_append_left _ (Option.mem_toList.mpr h)
  | _ => cases h

theorem mem_urls_of_lastFrame (h : url ∈ m.lastFrame?) : url ∈ m.urls := by
  cases m with
  | frames first last => exact List.mem_append_right _ (Option.mem_toList.mpr h)
  | _ => cases h

theorem Within.firstFrame (h : m.Within d) : ∀ url ∈ m.firstFrame?, d.firstFrame = true := by
  cases h with
  | frames _ hfirst _ => exact fun url hurl => (hfirst url hurl).1
  | _ => nofun

theorem Within.lastFrame (h : m.Within d) : ∀ url ∈ m.lastFrame?, d.lastFrame = true := by
  cases h with
  | frames _ _ hlast => exact fun url hurl => (hlast url hurl).1
  | _ => nofun

end ImageMode

namespace Params

/-- The request for these parameters, each in a field of its own. -/
def toRequest (p : Params) : Request where
  model := p.model
  prompt := p.prompt
  duration := some p.duration
  resolution := some p.resolution
  size := none
  aspectRatio := p.ratio
  seed := p.seed
  firstFrame := p.imageMode.firstFrame?
  lastFrame := p.imageMode.lastFrame?
  images := p.imageMode.referenceImages
  generateAudio := p.generateAudio
  cfgScale := p.cfgScale
  fps := p.fps.map Int.ofNat
  metadata := p.extras

/-- The texts are trimmed, and what is forwarded is an object. -/
structure Tidy (p : Params) : Prop where
  prompt : ∀ s ∈ p.prompt, Text.Trimmed s
  images : ∀ url ∈ p.imageMode.urls, Text.Trimmed url
  extras : p.extras.Sorted

end Params

namespace Effective

/-- The metadata keys that stand in for a field. -/
def fieldKeys : List String :=
  ["duration", "resolution", "ratio", "aspect_ratio", "seed", "first_frame_image", "first_frame",
    "last_frame_image", "last_frame", "generate_audio", "cfg_scale", "fps"]

variable {d : Descriptor} (r : Request)

theorem fromMetadata?_text_trimmed {key t : String}
    (h : fromMetadata? r key Metadata.text? = some t) : Text.Trimmed t := by
  obtain ⟨v, -, hv⟩ := Option.bind_eq_some_iff.mp h
  cases v with
  | str s => exact Text.nonBlank?_trimmed hv
  | _ => cases hv

theorem given_trimmed {field : Option String} {key key' url : String}
    (h : (field.bind Text.nonBlank? <|> fromMetadata? r key Metadata.text? <|>
      fromMetadata? r key' Metadata.text?) = some url) : Text.Trimmed url := by
  simp only [Option.orElse_eq_orElse, Option.orElse_eq_or, Option.or_eq_some_iff] at h
  rcases h with h | ⟨-, h | ⟨-, h⟩⟩
  · obtain ⟨s, -, hs⟩ := Option.bind_eq_some_iff.mp h
    exact Text.nonBlank?_trimmed hs
  · exact fromMetadata?_text_trimmed r h
  · exact fromMetadata?_text_trimmed r h

theorem references_trimmed : ∀ url ∈ references r d, Text.Trimmed url := by
  intro url hurl
  unfold references at hurl
  split at hurl
  · obtain ⟨image, -, himage⟩ := List.mem_filterMap.mp (List.mem_of_mem_take hurl)
    exact Text.nonBlank?_trimmed himage
  · cases hurl

theorem imageMode_trimmed : ∀ url ∈ (imageMode r d).urls, Text.Trimmed url := by
  intro url hurl
  unfold imageMode at hurl
  split at hurl
  · split at hurl
    · cases hurl
    · next image images hreferences =>
      refine references_trimmed (d := d) r url ?_
      rw [hreferences]
      exact hurl
  · rcases List.mem_append.mp hurl with hfirst | hlast
    · have hgiven := (Option.filter_eq_some_iff.mp (Option.mem_toList.mp hfirst)).1
      exact given_trimmed r hgiven
    · have hgiven := (Option.filter_eq_some_iff.mp (Option.mem_toList.mp hlast)).1
      exact given_trimmed r hgiven

/-- Frames count before references. -/
theorem imageMode_eq_ofParts :
    imageMode r d = .ofParts (firstFrame r d) (lastFrame r d) (references r d) := by
  unfold imageMode
  cases firstFrame r d with
  | some url => rfl
  | none =>
    cases lastFrame r d with
    | some url => rfl
    | none => cases references r d <;> rfl

end Effective

theorem Request.normalize_tidy (r : Request) (d : Descriptor) : (r.normalize d).Tidy where
  prompt := by
    intro s hs
    obtain ⟨t, -, ht⟩ := Option.bind_eq_some_iff.mp hs
    exact Text.nonBlank?_trimmed ht
  images := Effective.imageMode_trimmed r
  extras := Json.Members.ofList_sorted _

namespace Descriptor

/-- What the model supports is read back as itself, and what it forwards stands in
for no field. -/
structure ReadsBack (d : Descriptor) : Prop where
  duration : ∀ n ∈ d.durations, Effective.word? n = some n
  resolution : ∀ s ∈ d.resolutions, Text.Trimmed s ∧
    (Size.resolution? s).bind d.matchResolution? = some s
  ratio : ∀ s ∈ d.ratios, Text.Trimmed s
  passthrough : ∀ key ∈ d.passthroughKeys, key ∉ Effective.fieldKeys

theorem readsBack_iff {d : Descriptor} :
    d.ReadsBack ↔ (∀ n ∈ d.durations, Effective.word? n = some n) ∧
      (∀ s ∈ d.resolutions, Text.nonBlank? s = some s ∧
        (Size.resolution? s).bind d.matchResolution? = some s) ∧
      (∀ s ∈ d.ratios, Text.nonBlank? s = some s) ∧
      ∀ key ∈ d.passthroughKeys, key ∉ Effective.fieldKeys :=
  ⟨fun h => ⟨h.duration, h.resolution, h.ratio, h.passthrough⟩,
    fun ⟨hduration, hresolution, hratio, hkeys⟩ => ⟨hduration, hresolution, hratio, hkeys⟩⟩

instance (d : Descriptor) : Decidable d.ReadsBack :=
  decidable_of_iff' _ readsBack_iff

theorem capDuration_of_le {d : Descriptor} {resolution : String} {duration : Nat}
    (h : ∀ cap, d.durationCap? resolution = some cap → duration ≤ cap) :
    d.capDuration resolution duration = duration := by
  unfold capDuration
  cases hcap : d.durationCap? resolution with
  | none => rfl
  | some cap => exact if_pos (h cap hcap)

theorem matchRatio?_of_mem {d : Descriptor} {ratio : String} (h : ratio ∈ d.ratios) :
    d.matchRatio? ratio = some ratio := by
  unfold matchRatio?
  cases hfind : d.ratios.find? (· == ratio) with
  | none =>
    have hne := List.find?_eq_none.mp hfind ratio h
    simp at hne
  | some found =>
    have heq := List.find?_some hfind
    simpa using heq

end Descriptor

namespace Params

variable {d : Descriptor} {metadata : Json.Members} {p : Params}

theorem Within.fromMetadata?_eq_none (hp : p.Within d metadata) (hd : d.ReadsBack) {α : Type}
    {key : String} (hkey : key ∈ Effective.fieldKeys) (read : Json → Option α) :
    Effective.fromMetadata? p.toRequest key read = none := by
  have hnone : p.extras.get? key = none := by
    apply Json.Members.get?_eq_none_of_forall_ne
    rintro m hm rfl
    exact hd.passthrough _ (hp.extras m hm).1 hkey
  unfold Effective.fromMetadata?
  show (p.extras.get? key).bind read = none
  rw [hnone]
  rfl

theorem Within.duration_toRequest (hp : p.Within d metadata) (hd : d.ReadsBack) :
    Effective.duration p.toRequest d = p.duration := by
  have hword : Effective.word? (p.duration : Int) = some p.duration := hd.duration _ hp.duration
  have hsupported : d.supportsDuration p.duration = true := by
    simpa [Descriptor.supportsDuration] using hp.duration
  show ((((some (p.duration : Int)).bind Effective.word?)).filter d.supportsDuration).getD _ = _
  rw [Option.bind_some, hword, Option.filter_some, if_pos hsupported, Option.getD_some]

theorem Within.resolution_toRequest (hp : p.Within d metadata) (hd : d.ReadsBack) :
    Effective.resolution p.toRequest d = p.resolution := by
  obtain ⟨htrimmed, hmatch⟩ := hd.resolution _ hp.resolution
  have hsource : Effective.resolutionSource? p.toRequest = some p.resolution := by
    unfold Effective.resolutionSource?
    show ((some p.resolution).bind Text.nonBlank? <|> _) = _
    rw [Option.bind_some, htrimmed]
    rfl
  unfold Effective.resolution
  rw [hsource, Option.bind_some, hmatch, Option.getD_some]

theorem Within.ratio_toRequest (hp : p.Within d metadata) (hd : d.ReadsBack) :
    Effective.ratio p.toRequest d = p.ratio := by
  unfold Effective.ratio
  cases hratio : p.ratio with
  | none => rw [hp.ratio_eq_none_iff.mp hratio, Option.map_none]
  | some ratio =>
    have hmem : ratio ∈ d.ratios := hp.ratio ratio hratio
    have htrimmed : Text.Trimmed ratio := hd.ratio ratio hmem
    have hsource : Effective.ratioSource? p.toRequest = some ratio := by
      unfold Effective.ratioSource?
      show (p.ratio.bind Text.nonBlank? <|> _) = _
      rw [hratio, Option.bind_some, htrimmed]
      rfl
    obtain ⟨default, hdefault⟩ : ∃ default, d.defaultRatio = some default := by
      rw [← Option.ne_none_iff_exists']
      intro hnone
      cases hratio.symm.trans (hp.ratio_eq_none_iff.mpr hnone)
    rw [hdefault, Option.map_some, hsource, Option.bind_some, htrimmed.trim_eq,
      Descriptor.matchRatio?_of_mem hmem, Option.getD_some]

theorem Within.seed_toRequest (hp : p.Within d metadata) (hd : d.ReadsBack) :
    Effective.seed p.toRequest d = p.seed := by
  unfold Effective.seed
  rw [hp.fromMetadata?_eq_none hd (by decide)]
  show (p.seed <|> none).filter d.acceptsSeed = p.seed
  cases hseed : p.seed with
  | none => rfl
  | some seed =>
    obtain ⟨least, greatest, hrange, hleast, hgreatest⟩ := hp.seed seed hseed
    have haccepts : d.acceptsSeed seed = true := by
      simp [Descriptor.acceptsSeed, hrange, hleast, hgreatest]
    show (some seed).filter d.acceptsSeed = some seed
    rw [Option.filter_some, if_pos haccepts]

theorem Within.frame_toRequest (hp : p.Within d metadata) (hd : d.ReadsBack)
    {frame : Option String} {takes : Bool} {key key' : String}
    (hframe : ∀ url ∈ frame, takes = true ∧ Text.Trimmed url)
    (hkey : key ∈ Effective.fieldKeys) (hkey' : key' ∈ Effective.fieldKeys) :
    (frame.bind Text.nonBlank? <|> Effective.fromMetadata? p.toRequest key Metadata.text? <|>
      Effective.fromMetadata? p.toRequest key' Metadata.text?).filter (fun _ => takes) = frame := by
  rw [hp.fromMetadata?_eq_none hd hkey, hp.fromMetadata?_eq_none hd hkey',
    Text.bind_nonBlank?_eq_self fun url hurl => (hframe url hurl).2]
  cases hcases : frame with
  | none => rfl
  | some url =>
    show (some url).filter (fun _ => takes) = some url
    rw [Option.filter_some, if_pos (hframe url hcases).1]

theorem Within.firstFrame_toRequest (hp : p.Within d metadata) (ht : p.Tidy) (hd : d.ReadsBack) :
    Effective.firstFrame p.toRequest d = p.imageMode.firstFrame? := by
  apply hp.frame_toRequest hd _ (by decide) (by decide)
  intro url hurl
  exact ⟨hp.imageMode.firstFrame url hurl, ht.images url (ImageMode.mem_urls_of_firstFrame hurl)⟩

theorem Within.lastFrame_toRequest (hp : p.Within d metadata) (ht : p.Tidy) (hd : d.ReadsBack) :
    Effective.lastFrame p.toRequest d = p.imageMode.lastFrame? := by
  apply hp.frame_toRequest hd _ (by decide) (by decide)
  intro url hurl
  exact ⟨hp.imageMode.lastFrame url hurl, ht.images url (ImageMode.mem_urls_of_lastFrame hurl)⟩

/-- The images are as many as the model takes, so none is cut off again. -/
theorem Within.references_toRequest (hp : p.Within d metadata) (ht : p.Tidy) :
    Effective.references p.toRequest d = p.imageMode.referenceImages := by
  have hmode := hp.imageMode
  have htrimmed := ht.images
  unfold Effective.references
  show (if d.referenceImages then (p.imageMode.referenceImages.filterMap Text.nonBlank?).take
    d.maxReferenceImages else []) = _
  generalize p.imageMode = mode at hmode htrimmed ⊢
  cases hmode with
  | textOnly => simp [ImageMode.referenceImages]
  | frames => simp [ImageMode.referenceImages]
  | @reference images htakes _ hlength _ =>
    show (if d.referenceImages then (images.filterMap Text.nonBlank?).take d.maxReferenceImages
      else []) = images
    have hkept : images.filterMap Text.nonBlank? = images :=
      Text.filterMap_nonBlank?_eq_self htrimmed
    rw [if_pos htakes, hkept, List.take_of_length_le hlength]

theorem Within.imageMode_toRequest (hp : p.Within d metadata) (ht : p.Tidy) (hd : d.ReadsBack) :
    Effective.imageMode p.toRequest d = p.imageMode := by
  rw [Effective.imageMode_eq_ofParts, hp.firstFrame_toRequest ht hd, hp.lastFrame_toRequest ht hd,
    hp.references_toRequest ht]
  exact hp.imageMode.eq_ofParts.symm

theorem Within.generateAudio_toRequest (hp : p.Within d metadata) (hd : d.ReadsBack) :
    Effective.generateAudio p.toRequest d = p.generateAudio := by
  unfold Effective.generateAudio
  rw [hp.fromMetadata?_eq_none hd (by decide)]
  show (if d.audio then (p.generateAudio <|> none) else none) = p.generateAudio
  cases hsound : p.generateAudio with
  | none => exact ite_self _
  | some sound =>
    have haudio : d.audio = true := hp.generateAudio (by rw [hsound]; rfl)
    exact if_pos haudio

theorem Within.cfgScale_toRequest (hp : p.Within d metadata) (hd : d.ReadsBack) :
    Effective.cfgScale p.toRequest d = p.cfgScale := by
  unfold Effective.cfgScale
  rw [hp.fromMetadata?_eq_none hd (by decide)]
  show (if d.cfgScale then (p.cfgScale <|> none).filter _ else none) = p.cfgScale
  cases hscale : p.cfgScale with
  | none => exact ite_self _
  | some x =>
    obtain ⟨hflag, hleast, hgreatest⟩ := hp.cfgScale x hscale
    have hbounds : (Effective.leastCfgScale.le x && x.le Effective.greatestCfgScale) = true :=
      Bool.and_eq_true_iff.mpr ⟨hleast, hgreatest⟩
    show (if d.cfgScale then (some x).filter _ else none) = some x
    rw [if_pos hflag, Option.filter_some, if_pos hbounds]

theorem Within.fps_toRequest (hp : p.Within d metadata) (hd : d.ReadsBack) :
    Effective.fps p.toRequest d = p.fps := by
  unfold Effective.fps
  rw [hp.fromMetadata?_eq_none hd (by decide)]
  show (if d.fps then ((p.fps.map Int.ofNat <|> none).bind Effective.word?).filter _ else none) =
    p.fps
  cases hrate : p.fps with
  | none => exact ite_self _
  | some n =>
    obtain ⟨hflag, hleast, hgreatest⟩ := hp.fps n hrate
    have hword : Effective.word? (Int.ofNat n) = some n := by
      have hbound : (n : Int) ≤ Word.greatest32 := by
        simp only [Word.greatest32]
        omega
      simp [Effective.word?, hbound]
    have hbounds : (decide (Effective.leastFps ≤ n) && decide (n ≤ Effective.greatestFps)) =
        true := by
      simp [Effective.leastFps, Effective.greatestFps, hleast, hgreatest]
    show (if d.fps then ((some (Int.ofNat n)).bind Effective.word?).filter _ else none) = some n
    rw [if_pos hflag, Option.bind_some, hword, Option.filter_some, if_pos hbounds]

theorem Within.extras_toRequest (hp : p.Within d metadata) (ht : p.Tidy) :
    Effective.extras p.toRequest d = p.extras := by
  apply Json.Members.Sorted.ext (Json.Members.ofList_sorted _) ht.extras
  intro key
  ext value
  constructor
  · intro hget
    have hmem := (Json.Members.ofList_sorted _).get?_eq_some_iff.mp hget
    exact (Effective.extras_mem p.toRequest (key, value) hmem).2.1
  · intro hget
    obtain ⟨hkey, -, hvalue⟩ := hp.extras (key, value) (ht.extras.get?_eq_some_iff.mp hget)
    exact Effective.get?_extras p.toRequest hkey hget hvalue

/-- Tidy parameters within the capabilities are a fixed point of reconciling. -/
theorem Within.normalize_toRequest (hp : p.Within d metadata) (ht : p.Tidy) (hd : d.ReadsBack) :
    p.toRequest.normalize d = p := by
  have hduration : d.capDuration p.resolution p.duration = p.duration :=
    Descriptor.capDuration_of_le hp.duration_le_cap
  have hprompt : p.toRequest.promptText? = p.prompt := Text.bind_nonBlank?_eq_self ht.prompt
  unfold Request.normalize
  rw [hp.resolution_toRequest hd, hp.duration_toRequest hd, hp.ratio_toRequest hd,
    hp.seed_toRequest hd, hp.imageMode_toRequest ht hd, hp.generateAudio_toRequest hd,
    hp.cfgScale_toRequest hd, hp.fps_toRequest hd, hp.extras_toRequest ht, hduration, hprompt]
  rfl

end Params

theorem Vendor.capabilities_readsBack (v : Vendor) :
    ∀ d ∈ v.capabilities.descriptors, d.ReadsBack := by
  cases v <;> decide +kernel

/-- Reconciling a request with its model and then asking for the result, each
parameter in a field of its own, gives the same parameters again. -/
theorem Vendor.reconciled_fixed_point (v : Vendor) (r : Request) :
    v.normalize (v.normalize r).toRequest = v.normalize r := by
  have hreads : (v.capabilities.descriptor r.model).ReadsBack :=
    v.capabilities_readsBack _ (v.capabilities.descriptor_mem r.model)
  exact (v.normalize_within r).normalize_toRequest (r.normalize_tidy _) hreads

end VideoGateway

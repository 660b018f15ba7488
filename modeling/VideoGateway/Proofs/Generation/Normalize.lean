import VideoGateway.Proofs.Capability.Coherence
import VideoGateway.Proofs.Json.Members
import VideoGateway.Vendor.Payload

/-!
# Reconciled parameters stay within the capabilities

Whatever a request asks for, each of the parameters that it is reconciled to is
one that the model supports: a parameter that is always there has a supported
value, and one that may be left out is there only when the model takes it. For
this the descriptor has to be coherent.
-/
namespace VideoGateway

namespace Text

theorem all_dropWhile (p : Char → Bool) (cs : List Char) : (cs.dropWhile p).all p = cs.all p := by
  induction cs with
  | nil => rfl
  | cons c cs ih =>
    rw [List.dropWhile_cons]
    cases hc : p c <;> simp [hc, ih]

theorem isBlankText_trim (s : String) : isBlankText (trim s) = isBlankText s := by
  simp only [isBlankText, trim, dropBoth, dropRight, String.toList_ofList, List.all_reverse]
  rw [all_dropWhile, List.all_reverse, all_dropWhile]

theorem isBlankText_of_nonBlank? {s t : String} (h : nonBlank? s = some t) :
    isBlankText t = false := by
  unfold nonBlank? at h
  split at h
  · cases h
  · next hs =>
    cases h
    rw [isBlankText_trim]
    simpa using hs

end Text

/-- The images are of a kind that the model takes, and there is something to each
of them. -/
inductive ImageMode.Within (d : Descriptor) : ImageMode → Prop
  | textOnly : Within d .textOnly
  | frames {first last : Option String} :
      first.isSome = true ∨ last.isSome = true →
      (∀ url ∈ first, d.firstFrame = true ∧ Text.isBlankText url = false) →
      (∀ url ∈ last, d.lastFrame = true ∧ Text.isBlankText url = false) →
      Within d (.frames first last)
  | reference {images : List String} :
      d.referenceImages = true → 1 ≤ images.length → images.length ≤ d.maxReferenceImages →
      (∀ url ∈ images, Text.isBlankText url = false) → Within d (.reference images)

/-- The parameters are within the capabilities of a model, and what they take
over from the metadata is unchanged. -/
structure Params.Within (d : Descriptor) (metadata : Json.Members) (p : Params) : Prop where
  duration : p.duration ∈ d.durations
  duration_le_cap : ∀ cap, d.durationCap? p.resolution = some cap → p.duration ≤ cap
  resolution : p.resolution ∈ d.resolutions
  ratio_eq_none_iff : p.ratio = none ↔ d.defaultRatio = none
  ratio : ∀ ratio ∈ p.ratio, ratio ∈ d.ratios
  seed : ∀ seed ∈ p.seed, ∃ least greatest, d.seedRange = some (least, greatest) ∧
    least ≤ seed ∧ seed ≤ greatest
  imageMode : p.imageMode.Within d
  generateAudio : p.generateAudio.isSome = true → d.audio = true
  cfgScale : ∀ x ∈ p.cfgScale, d.cfgScale = true ∧
    (Binary64.ofNat 1).le x = true ∧ x.le (Binary64.ofNat 10) = true
  fps : ∀ n ∈ p.fps, d.fps = true ∧ 1 ≤ n ∧ n ≤ 60
  extras : ∀ m ∈ p.extras, m.1 ∈ d.passthroughKeys ∧ metadata.get? m.1 = some m.2 ∧ m.2 ≠ .null
  passthrough : ∀ key ∈ d.passthroughKeys, ∀ value, metadata.get? key = some value →
    value ≠ .null → p.extras.get? key = some value

namespace Effective

variable {d : Descriptor} (r : Request)

theorem duration_mem (hd : d.Coherent) : duration r d ∈ d.durations := by
  unfold duration
  dsimp only
  cases hwanted : ((r.duration <|> fromMetadata? r "duration" Metadata.int?).bind word?).filter
      d.supportsDuration with
  | none => exact hd.duration
  | some n =>
    obtain ⟨-, hsupported⟩ := Option.filter_eq_some_iff.mp hwanted
    simpa [Descriptor.supportsDuration] using hsupported

theorem resolution_mem (hd : d.Coherent) : resolution r d ∈ d.resolutions := by
  unfold resolution
  cases hmatch : ((resolutionSource? r).bind Size.resolution?).bind d.matchResolution? with
  | none => exact hd.resolution
  | some s =>
    obtain ⟨candidate, -, hfind⟩ := Option.bind_eq_some_iff.mp hmatch
    exact List.mem_of_find?_eq_some hfind

theorem ratio_eq_none_iff : ratio r d = none ↔ d.defaultRatio = none := by
  simp [ratio]

theorem ratio_mem (hd : d.Coherent) : ∀ x ∈ ratio r d, x ∈ d.ratios := by
  intro x hx
  obtain ⟨default, hdefault, rfl⟩ := Option.map_eq_some_iff.mp hx
  cases hmatch : (ratioSource? r).bind fun candidate => d.matchRatio? (Text.trim candidate) with
  | none => exact hd.ratio default hdefault
  | some s =>
    obtain ⟨candidate, -, hfind⟩ := Option.bind_eq_some_iff.mp hmatch
    exact List.mem_of_find?_eq_some hfind

theorem seed_mem : ∀ n ∈ seed r d, ∃ least greatest,
    d.seedRange = some (least, greatest) ∧ least ≤ n ∧ n ≤ greatest := by
  intro n hn
  obtain ⟨-, haccepts⟩ := Option.filter_eq_some_iff.mp hn
  unfold Descriptor.acceptsSeed at haccepts
  split at haccepts
  · next least greatest hrange =>
    simp only [Bool.and_eq_true, decide_eq_true_eq] at haccepts
    exact ⟨least, greatest, hrange, haccepts⟩
  · cases haccepts

theorem isBlankText_of_given {field : Option String} {key key' url : String}
    (h : (field.bind Text.nonBlank? <|> fromMetadata? r key Metadata.text? <|>
      fromMetadata? r key' Metadata.text?) = some url) : Text.isBlankText url = false := by
  have hmetadata {key : String} (h : fromMetadata? r key Metadata.text? = some url) :
      Text.isBlankText url = false := by
    obtain ⟨v, -, hv⟩ := Option.bind_eq_some_iff.mp h
    cases v with
    | str s => exact Text.isBlankText_of_nonBlank? hv
    | _ => cases hv
  simp only [Option.orElse_eq_orElse, Option.orElse_eq_or, Option.or_eq_some_iff] at h
  rcases h with h | ⟨-, h | ⟨-, h⟩⟩
  · obtain ⟨s, -, hs⟩ := Option.bind_eq_some_iff.mp h
    exact Text.isBlankText_of_nonBlank? hs
  · exact hmetadata h
  · exact hmetadata h

theorem firstFrame_mem : ∀ url ∈ firstFrame r d,
    d.firstFrame = true ∧ Text.isBlankText url = false := by
  intro url hurl
  obtain ⟨hgiven, htakes⟩ := Option.filter_eq_some_iff.mp hurl
  exact ⟨htakes, isBlankText_of_given r hgiven⟩

theorem lastFrame_mem : ∀ url ∈ lastFrame r d,
    d.lastFrame = true ∧ Text.isBlankText url = false := by
  intro url hurl
  obtain ⟨hgiven, htakes⟩ := Option.filter_eq_some_iff.mp hurl
  exact ⟨htakes, isBlankText_of_given r hgiven⟩

theorem references_mem : ∀ url ∈ references r d,
    d.referenceImages = true ∧ Text.isBlankText url = false := by
  intro url hurl
  unfold references at hurl
  split at hurl
  · next htakes =>
    obtain ⟨image, -, himage⟩ := List.mem_filterMap.mp (List.mem_of_mem_take hurl)
    exact ⟨htakes, Text.isBlankText_of_nonBlank? himage⟩
  · cases hurl

theorem length_references_le : (references r d).length ≤ d.maxReferenceImages := by
  unfold references
  split
  · exact List.length_take_le _ _
  · exact Nat.zero_le _

theorem imageMode_within : (imageMode r d).Within d := by
  unfold imageMode
  split
  · split
    · exact .textOnly
    · next image images hreferences =>
      have hmem := references_mem (d := d) r
      have hlength := length_references_le (d := d) r
      rw [hreferences] at hmem hlength
      exact .reference (hmem image List.mem_cons_self).1 (by simp) hlength
        fun url hurl => (hmem url hurl).2
  · next hnone =>
    refine .frames ?_ (firstFrame_mem r) (lastFrame_mem r)
    cases hfirst : firstFrame r d with
    | some url => exact .inl rfl
    | none =>
      cases hlast : lastFrame r d with
      | some url => exact .inr rfl
      | none => exact absurd hlast (hnone hfirst)

theorem generateAudio_isSome (h : (generateAudio r d).isSome = true) : d.audio = true := by
  unfold generateAudio at h
  split at h
  · next haudio => exact haudio
  · cases h

theorem cfgScale_mem : ∀ x ∈ cfgScale r d, d.cfgScale = true ∧
    (Binary64.ofNat 1).le x = true ∧ x.le (Binary64.ofNat 10) = true := by
  intro x hx
  unfold cfgScale at hx
  split at hx
  · next hflag =>
    obtain ⟨-, hbounds⟩ := Option.filter_eq_some_iff.mp hx
    exact ⟨hflag, Bool.and_eq_true_iff.mp hbounds⟩
  · cases hx

theorem fps_mem : ∀ n ∈ fps r d, d.fps = true ∧ 1 ≤ n ∧ n ≤ 60 := by
  intro n hn
  unfold fps at hn
  split at hn
  · next hflag =>
    obtain ⟨-, hbounds⟩ := Option.filter_eq_some_iff.mp hn
    simp only [leastFps, greatestFps, Bool.and_eq_true] at hbounds
    exact ⟨hflag, of_decide_eq_true hbounds.1, of_decide_eq_true hbounds.2⟩
  · cases hn

theorem mem_forwarded {key : String} {value : Json} :
    (key, value) ∈ (d.passthroughKeys.filterMap fun key =>
      match r.metadata.get? key with
      | none | some .null => none
      | some v => some (key, v)) ↔
    key ∈ d.passthroughKeys ∧ r.metadata.get? key = some value ∧ value ≠ .null := by
  rw [List.mem_filterMap]
  constructor
  · rintro ⟨k, hk, hpair⟩
    split at hpair
    · cases hpair
    · cases hpair
    · next v hnull hget =>
      obtain ⟨rfl, rfl⟩ := Prod.mk.inj (Option.some.inj hpair)
      exact ⟨hk, hget, hnull⟩
  · rintro ⟨hk, hget, hvalue⟩
    refine ⟨key, hk, ?_⟩
    rw [hget]
    split
    · next h => cases h
    · next h => exact absurd (Option.some.inj h) hvalue
    · next h => rw [Option.some.inj h]

theorem extras_mem : ∀ m ∈ extras r d,
    m.1 ∈ d.passthroughKeys ∧ r.metadata.get? m.1 = some m.2 ∧ m.2 ≠ .null :=
  fun _ hm => (mem_forwarded r).mp (Json.Members.mem_of_mem_ofList hm)

theorem get?_extras {key : String} {value : Json} (hkey : key ∈ d.passthroughKeys)
    (hget : r.metadata.get? key = some value) (hvalue : value ≠ .null) :
    (extras r d).get? key = some value := by
  refine Json.Members.get?_ofList_of_mem ((mem_forwarded r).mpr ⟨hkey, hget, hvalue⟩) ?_
  intro v hv
  obtain ⟨-, hv, -⟩ := (mem_forwarded r).mp hv
  exact Option.some.inj (hv.symm.trans hget)

end Effective

theorem Request.normalize_within {d : Descriptor} (hd : d.Coherent) (r : Request) :
    (r.normalize d).Within d r.metadata := by
  obtain ⟨hduration, hcap⟩ := hd.capDuration_mem (Effective.resolution r d)
    (Effective.duration_mem r hd)
  exact {
    duration := hduration
    duration_le_cap := hcap
    resolution := Effective.resolution_mem r hd
    ratio_eq_none_iff := Effective.ratio_eq_none_iff r
    ratio := Effective.ratio_mem r hd
    seed := Effective.seed_mem r
    imageMode := Effective.imageMode_within r
    generateAudio := Effective.generateAudio_isSome r
    cfgScale := Effective.cfgScale_mem r
    fps := Effective.fps_mem r
    extras := Effective.extras_mem r
    passthrough := fun _ hkey _ => Effective.get?_extras r hkey }

/-- A vendor is never asked for what its model cannot do. -/
theorem Vendor.normalize_within (v : Vendor) (r : Request) :
    (v.normalize r).Within (v.capabilities.descriptor r.model) r.metadata :=
  r.normalize_within (v.capabilities_coherent.descriptor r.model)

/-- Under coherent capabilities all parameters are within them, and the
capabilities of all vendors are coherent. -/
theorem reconciled_within_capabilities :
    (∀ d : Descriptor, d.Coherent → ∀ r : Request, (r.normalize d).Within d r.metadata) ∧
      ∀ v : Vendor, v.capabilities.Coherent :=
  ⟨fun _ hd r => r.normalize_within hd, Vendor.capabilities_coherent⟩

def Request.sample : Request where
  model := "doubao-seedance-1-0-lite-t2v"
  prompt := some "koi"
  duration := none
  resolution := some "720p"
  size := none
  aspectRatio := none
  seed := none
  firstFrame := none
  lastFrame := none
  images := []
  generateAudio := none
  cfgScale := none
  fps := none
  metadata := []

/-- Ten seconds at a resolution that is capped at six. -/
def Request.tooLong : Request :=
  { Request.sample with duration := some 10, resolution := some "1080p" }

theorem tooLong_within_capabilities :
    (Request.tooLong.normalize CapabilityTable.Hailuo.hailuo2).duration = 6 ∧
      (Request.tooLong.normalize CapabilityTable.Hailuo.hailuo2).Within
        CapabilityTable.Hailuo.hailuo2 [] :=
  ⟨by decide +kernel, reconciled_within_capabilities.1 _ (by decide) Request.tooLong⟩

end VideoGateway

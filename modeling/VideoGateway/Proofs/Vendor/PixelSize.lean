import VideoGateway.Proofs.Vendor.Substitution

/-!
# Sizes in pixels, sent and asked for

One vendor is told a size in pixels. A request that asks for this size instead of a
resolution and a ratio is prepared for the same video: the height is read back as
the resolution and the reduced ratio as the orientation, or the default that stands
in for an unsupported value happens to be the right one. The exception is the tallest
size, of which the models support neither the height as a resolution nor the ratio,
so that the defaults make a wide video of it.
-/
namespace VideoGateway

namespace Json.Members

def without (keys : List String) (ms : Members) : Members :=
  ms.filter fun m => m.1 ∉ keys

theorem get?_without (keys : List String) (ms : Members) (key : String) :
    (ms.without keys).get? key = if key ∈ keys then none else ms.get? key := by
  induction ms with
  | nil => exact (ite_self _).symm
  | cons m ms ih =>
    obtain ⟨k, v⟩ := m
    have hmembers : without keys ((k, v) :: ms) =
        if k ∈ keys then without keys ms else (k, v) :: without keys ms := by
      simp [without, List.filter_cons]
    rw [get?] at ih
    by_cases hkey : key = k
    · subst hkey
      by_cases hmem : key ∈ keys
      · simpa [hmembers, hmem, get?] using ih
      · simp [hmembers, hmem, get?]
    · have hne : (key == k) = false := beq_eq_false_iff_ne.mpr hkey
      by_cases hmem : k ∈ keys
      · simpa [hmembers, hmem, get?, List.lookup_cons, hne] using ih
      · simpa [hmembers, hmem, get?, List.lookup_cons, hne] using ih

end Json.Members

/-- The request for a size in pixels, where nothing else tells the resolution or the
ratio. -/
def Request.resized (size : String) (r : Request) : Request :=
  { r with
    resolution := none
    size := some size
    aspectRatio := none
    metadata := r.metadata.without ["resolution", "ratio", "aspect_ratio"] }

namespace Request

variable {r : Request} {size : String} {d : Descriptor} {p : Parameter}

theorem fromMetadata?_resized {α : Type} {key : String} (read : Json → Option α) :
    Effective.fromMetadata? (r.resized size) key read =
      if key ∈ ["resolution", "ratio", "aspect_ratio"] then none
      else Effective.fromMetadata? r key read := by
  show ((r.metadata.without _).get? key).bind read = _
  rw [Json.Members.get?_without]
  split <;> rfl

theorem asked?_resized (hresolution : p ≠ .resolution) (hratio : p ≠ .ratio) :
    p.asked? (r.resized size) = p.asked? r := by
  have hstated : p.stated? (r.resized size) = p.stated? r := by
    cases p <;> simp_all [Parameter.stated?, resized]
  have hkeys : ∀ key ∈ p.keys, key ∉ ["resolution", "ratio", "aspect_ratio"] := by
    revert hresolution hratio
    cases p <;> decide
  apply Parameter.asked?_congr hstated
  intro key hkey
  rw [fromMetadata?_resized, if_neg (hkeys key hkey)]

theorem asked?_resized_of_keys (hkeys : p.keys ⊆ ["resolution", "ratio", "aspect_ratio"]) :
    p.asked? (r.resized size) = p.stated? (r.resized size) := by
  apply Parameter.asked?_of_unsaid
  intro key hkey
  rw [fromMetadata?_resized, if_pos (hkeys hkey)]

theorem asked?_resolution_resized :
    Parameter.resolution.asked? (r.resized size) = Text.nonBlank? size := by
  rw [asked?_resized_of_keys (by decide)]
  simp [Parameter.stated?, resized]

theorem asked?_ratio_resized : Parameter.ratio.asked? (r.resized size) = Size.ratio? size := by
  rw [asked?_resized_of_keys (by decide)]
  simp [Parameter.stated?, resized]

theorem duration_resized : Effective.duration (r.resized size) d = Effective.duration r d := by
  have hasked : Parameter.duration.asked? (r.resized size) = Parameter.duration.asked? r :=
    asked?_resized nofun nofun
  rw [Effective.duration_eq, hasked, ← Effective.duration_eq]

theorem action_resized : (r.resized size).action = r.action := by
  have hfirst : Parameter.firstFrame.asked? (r.resized size) = Parameter.firstFrame.asked? r :=
    asked?_resized nofun nofun
  have hlast : Parameter.lastFrame.asked? (r.resized size) = Parameter.lastFrame.asked? r :=
    asked?_resized nofun nofun
  rw [action, hasFrameImage_eq, hfirst, hlast, ← hasFrameImage_eq]
  rfl

end Request

namespace OpenAi

variable {r : Request} {p : Params} {d : Descriptor} {action : Action} {body : Json}

/-- The size that comes of asking a model for one. -/
def sizeFor (d : Descriptor) (asked : String) : String :=
  size ((((Text.nonBlank? asked).bind Size.resolution?).bind d.matchResolution?).getD
      d.defaultResolution)
    (d.defaultRatio.map fun default =>
      ((Size.ratio? asked).bind fun ratio => d.matchRatio? (Text.trim ratio)).getD default)

/-- Every size that is told comes back, but for the tallest. -/
theorem sizeFor_size : ∀ d ∈ CapabilityTable.openAi.descriptors, ∀ resolution ∈ d.resolutions,
    ∀ ratio ∈ ["16:9", "9:16"], sizeFor d (size resolution (some ratio)) =
      if size resolution (some ratio) = "1024x1792" then "1280x720"
      else size resolution (some ratio) := by
  -- There are three pairs of a model and a resolution, so that six sizes are read back.
  decide +kernel

theorem size_resized (r : Request) (asked : String) :
    size (Effective.resolution (r.resized asked) d) (Effective.ratio (r.resized asked) d) =
      sizeFor d asked := by
  rw [Effective.resolution_eq, Effective.ratio_eq, Request.asked?_resolution_resized,
    Request.asked?_ratio_resized, sizeFor]

theorem capDuration_eq (hd : d ∈ CapabilityTable.openAi.descriptors) (resolution : String)
    (duration : Nat) : d.capDuration resolution duration = duration := by
  have hcaps : d.durationCaps = [] := by
    revert d
    decide
  rw [Descriptor.capDuration, Descriptor.durationCap?, hcaps]
  rfl

theorem extras_eq_nil (r : Request) : (Vendor.openAi.normalize r).extras = [] := by
  show Effective.extras r (CapabilityTable.openAi.descriptor r.model) = []
  rw [Effective.extras, passthroughKeys_eq_nil (CapabilityTable.openAi.descriptor_mem r.model)]
  rfl

theorem normalize_resized (r : Request) (asked : String) :
    Vendor.openAi.normalize (r.resized asked) = { Vendor.openAi.normalize r with
      resolution := (Vendor.openAi.normalize (r.resized asked)).resolution
      ratio := (Vendor.openAi.normalize (r.resized asked)).ratio } := by
  have hd := CapabilityTable.openAi.descriptor_mem r.model
  obtain ⟨himages, -, -, hseed, haudio, hcfg, hfps⟩ :=
    within_limits hd (Vendor.openAi.normalize_within r)
  obtain ⟨himages', -, -, hseed', haudio', hcfg', hfps'⟩ :=
    within_limits hd (Vendor.openAi.normalize_within (r.resized asked))
  ext1
  case duration =>
    refine (capDuration_eq hd _ _).trans (Eq.trans ?_ (capDuration_eq hd _ _).symm)
    exact Request.duration_resized
  case extras => exact (extras_eq_nil _).trans (extras_eq_nil r).symm
  case imageMode => exact himages'.trans himages.symm
  case seed => exact hseed'.trans hseed.symm
  case generateAudio => exact haudio'.trans haudio.symm
  case cfgScale => exact hcfg'.trans hcfg.symm
  case fps => exact hfps'.trans hfps.symm
  all_goals rfl

theorem payload_eq_ok_iff : Vendor.openAi.payload p = .ok body ↔
    ∃ prompt, p.prompt = some prompt ∧ payload p prompt = body := by
  cases hprompt : p.prompt with
  | none => simp [Vendor.payload, hprompt]
  | some prompt => simp [Vendor.payload, hprompt]

theorem member?_size (p : Params) (prompt : String) :
    (payload p prompt).member? "size" = some (.str (size p.resolution p.ratio)) := by
  simp [payload, Json.member?_object]

section Congruence

variable {q : Params} (hmodel : p.model = q.model) (hduration : p.duration = q.duration)
  (prompt : String)
include hmodel hduration

theorem payload_congr (hsize : size p.resolution p.ratio = size q.resolution q.ratio) :
    payload p prompt = payload q prompt := by
  rw [payload, hmodel, hduration, hsize, ← payload]

theorem member?_congr {key : String} (hkey : key ≠ "size") :
    (payload p prompt).member? key = (payload q prompt).member? key := by
  have hsize : (key == "size") = false := beq_eq_false_iff_ne.mpr hkey
  simp only [payload, Json.member?_object, List.reverse_cons, List.reverse_nil, List.nil_append,
    List.cons_append, List.lookup_cons, hsize, hmodel, hduration]

end Congruence

theorem prepare_resized (h : Vendor.openAi.prepare r = .ok (action, p)) (asked : String) :
    Vendor.openAi.prepare (r.resized asked) =
      .ok (action, Vendor.openAi.normalize (r.resized asked)) := by
  obtain ⟨hmodel, hsupported, hgiven, hprompt, haction, rfl⟩ := Vendor.prepare_eq_ok_iff.mp h
  have hsame := normalize_resized r asked
  refine Vendor.prepare_eq_ok_iff.mpr ⟨hmodel, ?_, ?_, ?_, ?_, rfl⟩
  · rwa [Request.action_resized]
  · rwa [Request.action_resized]
  · rwa [hsame]
  · rwa [hsame]

theorem size_normalize_resized (r : Request) {asked : String}
    (hasked : size (Vendor.openAi.normalize r).resolution (Vendor.openAi.normalize r).ratio = asked) :
    size (Vendor.openAi.normalize (r.resized asked)).resolution
      (Vendor.openAi.normalize (r.resized asked)).ratio =
        if asked = "1024x1792" then "1280x720" else asked := by
  have hd := CapabilityTable.openAi.descriptor_mem r.model
  have hwithin := Vendor.openAi.normalize_within r
  obtain ⟨ratio, hratio, heq⟩ := (within_limits hd hwithin).2.2.1
  subst hasked
  rw [heq]
  exact (size_resized r _).trans (sizeFor_size _ hd _ hwithin.resolution ratio hratio)

/-- The payload of a request that is accepted has a size in pixels, and the request can
ask for this size instead of a resolution and a ratio. It is accepted for the same
action, and its payload is the same, but for the tallest size: this comes back as the
default one, and what else the payload says remains. -/
theorem payload_resized (h : Vendor.openAi.prepare r = .ok (action, p)) :
    ∃ body asked, Vendor.openAi.payload p = .ok body ∧ body.member? "size" = some (.str asked) ∧
      ∃ q body', Vendor.openAi.prepare (r.resized asked) = .ok (action, q) ∧
        Vendor.openAi.payload q = .ok body' ∧
        (asked ≠ "1024x1792" → body' = body) ∧
        (asked = "1024x1792" → body'.member? "size" = some (.str "1280x720") ∧
          ∀ key ≠ "size", body'.member? key = body.member? key) := by
  obtain ⟨prompt, hprompt, -⟩ := payload_eq_ok_iff.mp (Vendor.prepared_of_prepare h).payload_eq
  obtain ⟨rfl, -, -⟩ := Vendor.prepare_eq_ok h
  obtain ⟨asked, hasked⟩ : ∃ asked, size (Vendor.openAi.normalize r).resolution
    (Vendor.openAi.normalize r).ratio = asked := ⟨_, rfl⟩
  have hsize := size_normalize_resized r hasked
  have hsame := normalize_resized r asked
  have hmodel : (Vendor.openAi.normalize (r.resized asked)).model =
      (Vendor.openAi.normalize r).model := by rw [hsame]
  have hduration : (Vendor.openAi.normalize (r.resized asked)).duration =
      (Vendor.openAi.normalize r).duration := by rw [hsame]
  have hprompt' : (Vendor.openAi.normalize (r.resized asked)).prompt = some prompt := by
    rw [hsame, hprompt]
  refine ⟨_, asked, payload_eq_ok_iff.mpr ⟨prompt, hprompt, rfl⟩, hasked ▸ member?_size _ prompt,
    _, _, prepare_resized h asked, payload_eq_ok_iff.mpr ⟨prompt, hprompt', rfl⟩,
    fun hkept => ?_, fun htallest => ⟨?_, ?_⟩⟩
  · rw [if_neg hkept] at hsize
    exact payload_congr hmodel hduration prompt (hsize.trans hasked.symm)
  · rw [member?_size, hsize, if_pos htallest]
  · exact fun key hkey => member?_congr hmodel hduration prompt hkey

/-- A wide video in the higher resolution. -/
theorem wideSize_payload :
    let wide := { Request.sample with model := "sora-2-pro", resolution := some "1024p" }
    ∃ p q body, Vendor.openAi.prepare wide = .ok (.textToVideo, p) ∧
      Vendor.openAi.payload p = .ok body ∧ body.member? "size" = some (.str "1792x1024") ∧
      Vendor.openAi.prepare (wide.resized "1792x1024") = .ok (.textToVideo, q) ∧
      Vendor.openAi.payload q = .ok body := by
  intro wide
  have hprepare : Vendor.openAi.prepare wide = .ok (.textToVideo, Vendor.openAi.normalize wide) :=
    Vendor.prepare_of_validate (show wide.validate = .ok .textToVideo by decide +kernel) (by decide)
      (by decide +kernel)
  have hwide : size (Vendor.openAi.normalize wide).resolution (Vendor.openAi.normalize wide).ratio =
      "1792x1024" := by decide +kernel
  obtain ⟨body, asked, hpayload, hasked, q, body', hq, hbody', hkept, -⟩ := payload_resized hprepare
  obtain ⟨prompt, -, rfl⟩ := payload_eq_ok_iff.mp hpayload
  have hsize := member?_size (Vendor.openAi.normalize wide) prompt
  rw [hwide] at hsize
  obtain rfl : asked = "1792x1024" := by simpa [hsize] using hasked.symm
  exact ⟨_, q, _, hprepare, hpayload, hsize, hq, hkept (by decide) ▸ hbody'⟩

/-- An upright video in the higher resolution comes back wide and in the lower one. -/
theorem tallestSize_payload_changed :
    let upright := { Request.sample with
      model := "sora-2-pro", resolution := some "1024p", aspectRatio := some "9:16" }
    ∃ p q body body', Vendor.openAi.prepare upright = .ok (.textToVideo, p) ∧
      Vendor.openAi.payload p = .ok body ∧ body.member? "size" = some (.str "1024x1792") ∧
      Vendor.openAi.prepare (upright.resized "1024x1792") = .ok (.textToVideo, q) ∧
      Vendor.openAi.payload q = .ok body' ∧ body'.member? "size" = some (.str "1280x720") ∧
      body' ≠ body := by
  intro upright
  have hprepare :
      Vendor.openAi.prepare upright = .ok (.textToVideo, Vendor.openAi.normalize upright) :=
    Vendor.prepare_of_validate (show upright.validate = .ok .textToVideo by decide +kernel)
      (by decide) (by decide +kernel)
  have hprompt : (Vendor.openAi.normalize upright).prompt = some "koi" := by decide +kernel
  have hprompt' : (Vendor.openAi.normalize (upright.resized "1024x1792")).prompt = some "koi" := by
    decide +kernel
  have htall : size (Vendor.openAi.normalize upright).resolution
      (Vendor.openAi.normalize upright).ratio = "1024x1792" := by decide +kernel
  have hsize := member?_size (Vendor.openAi.normalize upright) "koi"
  have hsize' := member?_size (Vendor.openAi.normalize (upright.resized "1024x1792")) "koi"
  rw [htall] at hsize
  rw [size_normalize_resized upright htall, if_pos rfl] at hsize'
  refine ⟨_, _, _, _, hprepare, payload_eq_ok_iff.mpr ⟨"koi", hprompt, rfl⟩, hsize,
    prepare_resized hprepare _, payload_eq_ok_iff.mpr ⟨"koi", hprompt', rfl⟩, hsize', ?_⟩
  intro heq
  rw [heq, hsize] at hsize'
  simp at hsize'

end OpenAi

end VideoGateway

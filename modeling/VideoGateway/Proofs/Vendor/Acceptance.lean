import VideoGateway.Proofs.Generation.FixedPoint

/-!
# Which requests are prepared

A request is looked at twice: once as it was written, for what it asks for, and once
reconciled with the model, for the images that are left of it. No image is left of a
request that asks for none. So the two checks come down to one: there is a prompt, or
the model takes an image. What is prepared is put to the vendor in a payload that
shows the prompt and all these images.
-/
namespace VideoGateway

namespace ImageMode

variable {d : Descriptor} {m : ImageMode}

theorem urls_eq (m : ImageMode) :
    m.urls = m.firstFrame?.toList ++ m.lastFrame?.toList ++ m.referenceImages := by
  cases m <;> simp [urls, firstFrame?, lastFrame?, referenceImages]

theorem action_eq_textToVideo_iff : m.action = .textToVideo ↔ m = .textOnly := by
  cases m <;> simp [action]

theorem Within.urls_eq_nil_iff (h : m.Within d) : m.urls = [] ↔ m = .textOnly := by
  cases h with
  | textOnly => simp [urls]
  | @frames first last hsome =>
    cases first <;> cases last <;> simp_all [urls]
  | @reference images _ hlength =>
    cases images <;> simp_all [urls]

theorem Within.isBlankText_of_mem (h : m.Within d) :
    ∀ url ∈ m.urls, Text.isBlankText url = false := by
  intro url hurl
  cases h with
  | textOnly => cases hurl
  | frames _ hfirst hlast =>
    rcases List.mem_append.mp hurl with hmem | hmem
    · exact (hfirst url (Option.mem_toList.mp hmem)).2
    · exact (hlast url (Option.mem_toList.mp hmem)).2
  | reference _ _ _ himages => exact himages url hurl

end ImageMode

namespace Request

variable {r : Request} {action : Action}

theorem given_eq_isSome (s : Option String) : given s = (s.bind Text.nonBlank?).isSome := by
  cases s with
  | none => rfl
  | some s =>
    rw [given, Option.bind_some, Text.nonBlank?]
    cases Text.isBlankText s <;> rfl

theorem bind_nonBlank?_metadata (r : Request) (key : String) :
    ((r.metadata.get? key).bind Json.str?).bind Text.nonBlank? =
      Effective.fromMetadata? r key Metadata.text? := by
  rw [Effective.fromMetadata?, Option.bind_assoc]
  congr 1
  funext v
  cases v <;> rfl

theorem isSome_promptText? (r : Request) : r.promptText?.isSome = given r.prompt :=
  (given_eq_isSome r.prompt).symm

theorem action_eq_textToVideo (h : r.action = .textToVideo) :
    r.hasFrameImage = false ∧ r.hasReferenceImages = false := by
  unfold action at h
  split at h
  · cases h
  · split at h
    · cases h
    · simp_all

theorem imageMode_of_textToVideo (d : Descriptor) (h : r.action = .textToVideo) :
    Effective.imageMode r d = .textOnly := by
  obtain ⟨hframes, himages⟩ := action_eq_textToVideo h
  simp only [hasFrameImage, frameKeys, List.any_cons, List.any_nil, given_eq_isSome,
    bind_nonBlank?_metadata, Bool.or_eq_false_iff, Option.isSome_eq_false_iff,
    Option.isNone_iff_eq_none] at hframes
  obtain ⟨⟨hfirst, hlast⟩, hfirst₁, hfirst₂, hlast₁, hlast₂, -⟩ := hframes
  have hfirst : Effective.firstFrame r d = none := by
    rw [Effective.firstFrame, hfirst, hfirst₁, hfirst₂]
    rfl
  have hlast : Effective.lastFrame r d = none := by
    rw [Effective.lastFrame, hlast, hlast₁, hlast₂]
    rfl
  have hreferences : Effective.references r d = [] := by
    have hblank : r.images.filterMap Text.nonBlank? = [] := by
      rw [List.filterMap_eq_nil_iff]
      intro image hmem
      have himage := List.any_eq_false.mp himages image hmem
      simpa [Text.nonBlank?] using himage
    rw [Effective.references, hblank, List.take_nil, ite_self]
  rw [Effective.imageMode, hfirst, hlast, hreferences]

theorem validate_eq_ok_iff : r.validate = .ok action ↔
    Text.isBlankText r.model = false ∧ (r.action = .textToVideo → given r.prompt = true) ∧
      action = r.action := by
  rw [validate, ← isSome_promptText?, eq_comm (a := action)]
  cases Text.isBlankText r.model with
  | true => simp
  | false =>
    cases r.promptText? with
    | none => cases r.action <;> simp
    | some s => simp

end Request

theorem Params.validate_eq_ok_iff {p : Params} {action : Action} : p.validate = .ok action ↔
    (p.imageMode = .textOnly → p.prompt.isSome = true) ∧ action = p.imageMode.action := by
  rw [validate, ← ImageMode.action_eq_textToVideo_iff, eq_comm (a := action)]
  cases p.prompt with
  | none => cases p.imageMode.action <;> simp
  | some s => simp

namespace Json

def items : Json → List Json
  | .arr vs => vs
  | _ => []

end Json

namespace Doubao

/-- The address of an image, whatever it is for. -/
def url? (item : Json) : Option String :=
  ((item.member? "image_url").bind (Json.member? · "url")).bind Json.str?

theorem url?_textItem (s : String) : url? (textItem s) = none := by
  simp [url?, textItem, Json.member?_object, List.lookup_cons]

theorem url?_imageItem (role url : String) : url? (imageItem role url) = some url := by
  simp [url?, imageItem, Json.member?_object, List.lookup_cons, Json.str?]

theorem filterMap_url?_content (p : Params) : (content p).filterMap url? = p.imageMode.urls := by
  simp [content, List.filterMap_map, url?_textItem, url?_imageItem, ImageMode.urls_eq]

theorem lookup_content (p : Params) :
    (stated p).reverse.lookup "content" = some (.arr (content p)) := by
  simp [stated, List.lookup_append, List.lookup_cons]

end Doubao

namespace Hailuo

theorem lookup_prompt (p : Params) :
    (stated p).reverse.lookup "prompt" = p.prompt.map .str := by
  simp [stated, subjects_eq, List.lookup_append, List.lookup_cons]

theorem lookup_firstFrame (p : Params) :
    (stated p).reverse.lookup "first_frame_image" = p.imageMode.firstFrame?.map .str := by
  simp [stated, subjects_eq, List.lookup_append, List.lookup_cons]

theorem lookup_lastFrame (p : Params) :
    (stated p).reverse.lookup "last_frame_image" = p.imageMode.lastFrame?.map .str := by
  simp [stated, subjects_eq, List.lookup_append, List.lookup_cons]

theorem lookup_subject (p : Params) :
    (stated p).reverse.lookup "subject_reference" = subject? p.imageMode.referenceImages := by
  simp [stated, subjects_eq, List.lookup_append, List.lookup_cons]

end Hailuo

namespace OpenAi

theorem lookup_prompt (p : Params) :
    (stated p).reverse.lookup "prompt" = p.prompt.map .str := by
  simp [stated, List.lookup_append, List.lookup_cons]

end OpenAi

namespace Vendor

variable {v : Vendor} {p : Params} {r : Request} {action : Action}

/-- The items of a list that a payload has under a key. -/
def listed (body : Json) (key : String) : List Json :=
  ((body.member? key).map Json.items).getD []

def told (body : Json) (key : String) : Option String :=
  (body.member? key).bind Json.str?

def prompts : Vendor → Json → List String
  | .doubao, body => (listed body "content").filterMap Doubao.text?
  | .hailuo, body | .openAi, body => (told body "prompt").toList

def images : Vendor → Json → List String
  | .doubao, body => (listed body "content").filterMap Doubao.url?
  | .hailuo, body =>
    (told body "first_frame_image").toList ++ (told body "last_frame_image").toList ++
      (listed body "subject_reference").flatMap fun subject =>
        (listed subject "image").filterMap Json.str?
  | .openAi, _ => []

/-- What a payload says about a parameter is not replaced by forwarded metadata. -/
theorem Prepared.member?_payload (h : v.Prepared p) {key : String} (hkey : key ∈ v.statedKeys) :
    (Json.object (v.stated p ++ p.extras)).member? key = (v.stated p).reverse.lookup key := by
  rw [Json.member?_object_append_of_mem h.extras_sorted h.extras_free hkey, Json.member?_object]

theorem told_of_member? {body : Json} {key : String} {text : Option String}
    (h : body.member? key = text.map .str) : told body key = text := by
  rw [told, h]
  cases text <;> rfl

theorem listed_of_member? {body : Json} {key : String} {items : List Json}
    (h : body.member? key = some (.arr items)) : listed body key = items := by
  rw [listed, h]
  rfl

theorem images_of_subject {body : Json} {urls : List String}
    (h : body.member? "subject_reference" = Hailuo.subject? urls) :
    ((listed body "subject_reference").flatMap fun subject =>
      (listed subject "image").filterMap Json.str?) = urls := by
  cases urls with
  | nil =>
    rw [listed, h]
    rfl
  | cons url urls =>
    have himages : listed (.object [("type", .str "character"),
        ("image", .arr ((url :: urls).map .str))]) "image" = (url :: urls).map .str := by
      apply listed_of_member?
      simp [Json.member?_object]
    rw [listed_of_member? h, List.flatMap_singleton, himages, List.filterMap_map]
    exact List.filterMap_some

theorem Prepared.payload_shows (h : v.Prepared p) : ∃ body, v.payload p = .ok body ∧
    v.prompts body = p.prompt.toList ∧ v.images body = p.imageMode.urls := by
  refine ⟨_, h.payload_eq, ?_⟩
  cases v with
  | doubao =>
    have hcontent := (h.member?_payload (by decide)).trans (Doubao.lookup_content p)
    simp only [prompts, images, listed_of_member? hcontent, Doubao.filterMap_text?_content,
      Doubao.filterMap_url?_content, and_self]
  | hailuo =>
    have hprompt := (h.member?_payload (by decide)).trans (Hailuo.lookup_prompt p)
    have hfirst := (h.member?_payload (by decide)).trans (Hailuo.lookup_firstFrame p)
    have hlast := (h.member?_payload (by decide)).trans (Hailuo.lookup_lastFrame p)
    have hsubject := (h.member?_payload (by decide)).trans (Hailuo.lookup_subject p)
    simp only [prompts, images, told_of_member? hprompt, told_of_member? hfirst,
      told_of_member? hlast, images_of_subject hsubject, ImageMode.urls_eq, and_self]
  | openAi =>
    obtain ⟨d, hd, metadata, hwithin⟩ := h.within
    have htext : p.imageMode = .textOnly := (OpenAi.within_limits hd hwithin).1
    have hprompt := (h.member?_payload (by decide)).trans (OpenAi.lookup_prompt p)
    simp only [prompts, images, told_of_member? hprompt, htext, ImageMode.urls, and_self]

theorem prepare_eq_ok_iff : v.prepare r = .ok (action, p) ↔
    Text.isBlankText r.model = false ∧ r.action ∈ v.supportedActions ∧
      (r.action = .textToVideo → Request.given r.prompt = true) ∧
      ((v.normalize r).imageMode = .textOnly → (v.normalize r).prompt.isSome = true) ∧
      action = (v.normalize r).imageMode.action ∧ p = v.normalize r := by
  unfold prepare
  simp only [bind_eq_ok_iff, Request.validate_eq_ok_iff]
  constructor
  · rintro ⟨requested, ⟨hmodel, hprompt, rfl⟩, h⟩
    split at h
    · next hsupported =>
      obtain ⟨made, hmade, h⟩ := bind_eq_ok_iff.mp h
      cases h
      obtain ⟨htext, rfl⟩ := Params.validate_eq_ok_iff.mp hmade
      exact ⟨hmodel, List.contains_iff_mem.mp hsupported, hprompt, htext, rfl, rfl⟩
    · cases h
  · rintro ⟨hmodel, hsupported, hprompt, htext, rfl, rfl⟩
    refine ⟨r.action, ⟨hmodel, hprompt, rfl⟩, ?_⟩
    rw [if_pos (List.contains_iff_mem.mpr hsupported)]
    exact bind_eq_ok_iff.mpr ⟨_, Params.validate_eq_ok_iff.mpr ⟨htext, rfl⟩, rfl⟩

theorem normalize_imageMode_within (v : Vendor) (r : Request) :
    (v.normalize r).imageMode.Within (v.capabilities.descriptor r.model) :=
  (v.normalize_within r).imageMode

/-- What is left of the images is something that the vendor makes videos from. -/
theorem normalize_action_mem (v : Vendor) (r : Request) :
    (v.normalize r).imageMode.action ∈ v.supportedActions := by
  cases v with
  | openAi =>
    have htext := (OpenAi.within_limits (CapabilityTable.openAi.descriptor_mem r.model)
      (openAi.normalize_within r)).1
    rw [htext]
    exact List.mem_cons_self
  | doubao | hailuo => cases (normalize _ r).imageMode.action <;> decide

theorem isBlankText_of_prompt : ∀ s ∈ (v.normalize r).prompt, Text.isBlankText s = false := by
  intro s hs
  obtain ⟨prompt, -, hprompt⟩ := Option.bind_eq_some_iff.mp hs
  exact Text.isBlankText_of_nonBlank? hprompt

/-- A request is prepared exactly when it names a model, asks for something that the
vendor makes videos from, and has a prompt or an image that the model takes; there is
such an image only if the request asks for one. What is prepared is the reconciled
request, for the images that are left, and it is put in a payload that shows its prompt
and these images, one of them at least. -/
theorem prepare_accepts_iff (v : Vendor) (r : Request) :
    ((∃ made, v.prepare r = .ok made) ↔
      Text.isBlankText r.model = false ∧ r.action ∈ v.supportedActions ∧
        (Request.given r.prompt = true ∨ (v.normalize r).imageMode.urls ≠ [])) ∧
    ((v.normalize r).imageMode.urls ≠ [] → r.action ≠ .textToVideo) ∧
    ∀ action p, v.prepare r = .ok (action, p) →
      p = v.normalize r ∧ action = p.imageMode.action ∧ action ∈ v.supportedActions ∧
      ∃ body, v.payload p = .ok body ∧
        v.prompts body = p.prompt.toList ∧ v.images body = p.imageMode.urls ∧
        ((∃ s ∈ v.prompts body, Text.isBlankText s = false) ∨
          ∃ url ∈ v.images body, Text.isBlankText url = false) := by
  have hwithin := v.normalize_imageMode_within r
  have hprompt : (v.normalize r).prompt.isSome = Request.given r.prompt := r.isSome_promptText?
  have hasked : (v.normalize r).imageMode.urls ≠ [] → r.action ≠ .textToVideo := by
    intro hurls htext
    exact hurls (hwithin.urls_eq_nil_iff.mpr (Request.imageMode_of_textToVideo _ htext))
  refine ⟨⟨?_, ?_⟩, hasked, ?_⟩
  · rintro ⟨⟨action, p⟩, h⟩
    obtain ⟨hmodel, hsupported, -, htext, -, -⟩ := prepare_eq_ok_iff.mp h
    refine ⟨hmodel, hsupported, ?_⟩
    by_cases hurls : (v.normalize r).imageMode.urls = []
    · exact .inl (hprompt ▸ htext (hwithin.urls_eq_nil_iff.mp hurls))
    · exact .inr hurls
  · rintro ⟨hmodel, hsupported, hsource⟩
    -- Both checks ask for a prompt only where there is no image.
    refine ⟨_, prepare_eq_ok_iff.mpr ⟨hmodel, hsupported, ?_, ?_, rfl, rfl⟩⟩
    · intro htext
      exact hsource.resolve_right fun hurls => hasked hurls htext
    · intro htext
      rw [hprompt]
      exact hsource.resolve_right (not_not_intro (hwithin.urls_eq_nil_iff.mpr htext))
  · intro action p h
    obtain ⟨-, -, -, htext, rfl, rfl⟩ := prepare_eq_ok_iff.mp h
    obtain ⟨body, hbody, hprompts, himages⟩ := (prepared_of_prepare h).payload_shows
    refine ⟨rfl, rfl, v.normalize_action_mem r, body, hbody, hprompts, himages, ?_⟩
    rw [hprompts, himages]
    by_cases hmode : (v.normalize r).imageMode = .textOnly
    · obtain ⟨s, hs⟩ := Option.isSome_iff_exists.mp (htext hmode)
      exact .inl ⟨s, Option.mem_toList.mpr hs, isBlankText_of_prompt s hs⟩
    · obtain ⟨url, hurl⟩ := List.exists_mem_of_ne_nil _ (mt hwithin.urls_eq_nil_iff.mp hmode)
      exact .inr ⟨url, hurl, hwithin.isBlankText_of_mem url hurl⟩

/-- A video from one image alone, beside a blank text for another one. -/
theorem pictured_prepare_accepts : ∃ body,
    let pictured := { Request.sample with
      model := "doubao-seedance-1-0-lite-i2v", prompt := some " ", images := ["", "http://koi"] }
    doubao.prepare pictured = .ok (.referenceToVideo, doubao.normalize pictured) ∧
      doubao.payload (doubao.normalize pictured) = .ok body ∧ doubao.images body = ["http://koi"] := by
  let pictured := { Request.sample with
    model := "doubao-seedance-1-0-lite-i2v", prompt := some " ", images := ["", "http://koi"] }
  have hprepared : doubao.prepare pictured = .ok (.referenceToVideo, doubao.normalize pictured) :=
    prepare_of_validate (show pictured.validate = .ok .referenceToVideo by decide +kernel)
      (by decide) (by decide +kernel)
  obtain ⟨-, -, -, body, hbody, -, himages, -⟩ :=
    (prepare_accepts_iff doubao pictured).2.2 _ _ hprepared
  have hurls : (doubao.normalize pictured).imageMode.urls = ["http://koi"] := by decide +kernel
  exact ⟨body, hprepared, hbody, himages.trans hurls⟩

end Vendor

end VideoGateway

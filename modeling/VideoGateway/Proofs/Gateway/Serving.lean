import VideoGateway.Proofs.Gateway.Authorization
import VideoGateway.Proofs.Gateway.Document
import VideoGateway.Proofs.Gateway.KeyConfinement
import VideoGateway.Proofs.Gateway.Retrying
import VideoGateway.Proofs.Storage.LinkHeader

/-!
# Which copy of a video is served

A finished video is served from the stored copy as long as the bucket has it, and from
the vendor otherwise; its document shows the address of the same one. What a redirect or
a download needs is there for every record that the gateway can have written.
-/
namespace VideoGateway

variable {σ τ : Type} {env : Surroundings σ} {w : World σ}

namespace Channel

/-- The address that is shown of a video without a stored copy: the vendor's, or the
gateway's own path where the octets need the key of the channel. -/
def shownUrl? (c : Channel) (t : Task) : Option String :=
  match c.vendor with
  | .doubao | .hailuo => t.resultUrl
  | .openAi => some (OpenAi.contentPath t.id)

theorem document_url (c : Channel) {t : Task} (hs : t.status = .success)
    (hurl : t.resultUrl.isSome = true) (link : Option String) :
    (c.document { t with storageUrl := link }).url = (link <|> c.shownUrl? t) := by
  have hplain : (VideoDocument.ofTask { t with storageUrl := link }).url =
      (link <|> t.resultUrl) := if_pos hs
  unfold document shownUrl?
  cases c.vendor with
  | doubao | hailuo => exact hplain
  | openAi =>
    simp only [VideoDocument.withError, VideoDocument.withMetadata]
    cases link with
    | some link =>
      rw [if_neg (by simp), hplain]
      rfl
    | none =>
      rw [hplain, if_pos (by simpa using hurl)]
      rfl

theorem exists_contentCall {c : Channel} {t : Task} {headers : Http.Headers}
    (hheaders : c.headers = .ok headers) (hurl : t.resultUrl.isSome = true) :
    ∃ call, c.contentCall? t = some call := by
  obtain ⟨value, hvalue, -⟩ := headers_eq_ok_iff.mp hheaders
  obtain ⟨url, hurl⟩ := Option.isSome_iff_exists.mp hurl
  unfold contentCall?
  cases c.vendor with
  | doubao | hailuo => exact ⟨_, by rw [hurl]; rfl⟩
  | openAi => exact ⟨_, by rw [bearer_eq_ok_iff.mpr hvalue]; rfl⟩

end Channel

namespace BucketLocation

variable {l : BucketLocation} {key : String}

theorem measure_run (l : BucketLocation) (key : String) (env : Surroundings σ) (w : World σ) :
    ((l.measure key).run.run env w).1 =
      if (env.refuses (.measure (l.objectPath key)) w.outside).1 then .error (.bucket .refused)
      else match w.bucket.get? (l.objectPath key) with
        | some content => .ok content.length
        | none => .error (.bucket .notFound) := by
  unfold measure Attempt.bucket
  rw [ExceptT.run_mk, Program.run_map]
  generalize hrefuses : env.refuses (.measure (l.objectPath key)) w.outside = answer
  obtain ⟨refused, outside⟩ := answer
  cases refused with
  | true => simp [Program.effect, Effect.perform, hrefuses, Except.mapError]
  | false =>
    cases hobject : w.bucket.get? (l.objectPath key) <;>
      simp [Program.effect, Effect.perform, hrefuses, Bucket.perform, hobject, Except.mapError]

theorem contains_run {there : Bool} (h : ((l.contains key).run.run env w).1 = .ok there) :
    (w.bucket.get? (l.objectPath key)).isSome = there := by
  unfold contains at h
  rw [Attempt.run_bind_of_ok (Attempt.run_lift _ env w), measure_run] at h
  by_cases hrefused : (env.refuses (.measure (l.objectPath key)) w.outside).1 = true
  · rw [if_pos hrefused] at h
    cases h
  · rw [if_neg hrefused] at h
    cases hobject : w.bucket.get? (l.objectPath key) with
    | none | some =>
      rw [hobject] at h
      exact Except.ok.inj h

theorem storedLink_run {found : Option String}
    (h : ((l.storedLink key).run.run env w).1 = .ok found) :
    (∃ link, found = some link ∧ (w.bucket.get? (l.objectPath key)).isSome = true ∧
      l.link key none = .ok link) ∨
    found = none ∧ w.bucket.get? (l.objectPath key) = none := by
  unfold storedLink at h
  rw [ExceptT.run_bind, Program.run_bind] at h
  cases hthere : ((l.contains key).run.run env w).1 with
  | error e =>
    rw [hthere] at h
    cases h
  | ok there =>
    have hobject := contains_run hthere
    rw [hthere] at h
    cases there with
    | false =>
      obtain rfl := Except.ok.inj h
      exact .inr ⟨rfl, Option.not_isSome_iff_eq_none.mp (Bool.eq_false_iff.mp hobject)⟩
    | true =>
      cases hlink : l.link key none with
      | error e =>
        simp only [hlink] at h
        cases h
      | ok link =>
        simp only [hlink] at h
        exact .inl ⟨link, (Except.ok.inj h).symm, hobject, rfl⟩

end BucketLocation

namespace Gateway

variable {g : Gateway} {t : Task}

/-- What serving a video relies on: a finished task belongs to a channel whose key may be
sent, and has an address; a stored copy was made by a storage. -/
structure Servable (g : Gateway) (t : Task) : Prop where
  channel : t.status = .success → ∃ c headers, g.registry.byId? t.channelId = some c ∧
    c.headers = .ok headers
  resultUrl : t.status = .success → t.resultUrl.isSome = true
  storage : t.storageKey.isSome = true → g.storage.isSome = true
  storageUrl : t.storageKey = none → t.storageUrl = none

theorem Tells.servable {told : Outcome × Json} (h : g.Tells t told) (ht : g.Servable t)
    (now : Instant) : g.Servable (t.advanced told.1 told.2 now) := by
  have hsound := h.sound
  obtain ⟨c, call, body, hc, hcall, -, -⟩ := h
  refine ⟨fun _ => ?_, fun hs => ?_, ht.storage, ht.storageUrl⟩
  · -- The channel was asked with its key.
    obtain ⟨headers, hheaders, -⟩ := bind_eq_ok_iff.mp hcall
    exact ⟨c, headers, channelOf_eq_ok_iff.mp hc, hheaders⟩
  · obtain ⟨url, hurl⟩ := hsound.url_of_success hs
    show (told.1.url <|> t.resultUrl).isSome = true
    rw [hurl]
    rfl

theorem maintains_servable (g : Gateway) : g.Maintains g.Servable fun _ => True where
  accepts t h := by
    obtain ⟨c, -, status, body, accepted, action, params, ratio, now, -, rfl⟩ := h
    exact ⟨nofun, nofun, nofun, fun _ => rfl⟩
  advanced t told now ht htold := htold.servable ht now
  timedOut t now ht := ⟨nofun, nofun, ht.storage, ht.storageUrl⟩
  withStored t key url hstorage ht := ⟨ht.channel, ht.resultUrl, fun _ => hstorage, nofun⟩
  submitCall _ _ _ _ _ := trivial
  statusCall _ _ _ _ _ := trivial
  fileCall _ _ _ _ _ _ := trivial
  plainCall _ := trivial
  contentCall _ _ _ _ _ _ := trivial

/-- Every record that the gateway can have written may be served. -/
theorem servable_of_find? (g : Gateway) (env : Surroundings σ) (w₀ : World σ)
    (history : List Session.Turn) {taskId : String}
    (ht : ((Session.opened w₀.withoutTasks).after g env history).world.tasks.find? taskId =
      some t) : g.Servable t := by
  obtain ⟨channelId, hstored⟩ := TaskStore.find?_eq_some_iff.mp ht
  exact ((Session.opened_upholds w₀.withoutTasks w₀.withoutTasks_all).after
    g.maintains_servable env history).tasks _ _ _ hstored

/-- The bucket has the stored copy of the video, and this is the link to it. -/
def HasCopy (g : Gateway) (b : Bucket) (t : Task) (link : String) : Prop :=
  ∃ key s, t.storageKey = some key ∧ g.storage = some s ∧
    (b.get? (s.location.objectPath key)).isSome = true ∧ s.location.link key none = .ok link

/-- The video was never copied, or the copy has gone from the bucket. -/
def LacksCopy (g : Gateway) (b : Bucket) (t : Task) : Prop :=
  ∀ key s, t.storageKey = some key → g.storage = some s →
    b.get? (s.location.objectPath key) = none

/-- The lookup of the stored copy does not fail. -/
def LooksUp (g : Gateway) (env : Surroundings σ) (w : World σ) (t : Task) : Prop :=
  ∀ key s, t.storageKey = some key → g.storage = some s →
    ∃ found, ((s.location.storedLink key).run.run env w).1 = .ok found

/-- A finished task is shown with the link to the copy exactly when the bucket has it. -/
theorem refreshed_cases (ht : g.Servable t) (hlookup : g.LooksUp env w t) :
    (∃ link, g.HasCopy w.bucket t link ∧
      ((g.refreshed t).run env w).1 = { t with storageUrl := some link }) ∨
    g.LacksCopy w.bucket t ∧ ((g.refreshed t).run env w).1 = { t with storageUrl := none } := by
  obtain hkey | ⟨key, hkey⟩ := Option.eq_none_or_eq_some t.storageKey
  · -- Without a key nothing is looked up, and the record has no link that could be old.
    have hshown : g.refreshed t = pure t := by
      unfold refreshed
      rw [hkey]
    refine .inr ⟨fun key s hsome _ => (nomatch hkey.symm.trans hsome), ?_⟩
    rw [hshown, ← ht.storageUrl hkey]
    rfl
  · obtain ⟨s, hs⟩ := Option.isSome_iff_exists.mp (ht.storage (by rw [hkey]; rfl))
    obtain ⟨found, hfound⟩ := hlookup key s hkey hs
    have hshown : ((g.refreshed t).run env w).1 = { t with storageUrl := found } := by
      unfold refreshed
      rw [hkey, hs]
      dsimp only
      rw [Program.run_bind, hfound]
      rfl
    obtain ⟨link, rfl, hthere, hlink⟩ | ⟨rfl, hgone⟩ := BucketLocation.storedLink_run hfound
    · exact .inl ⟨link, ⟨key, s, hkey, hs, hthere, hlink⟩, hshown⟩
    · refine .inr ⟨fun key' s' hkey' hs' => ?_, hshown⟩
      obtain rfl : key = key' := Option.some.inj (hkey.symm.trans hkey')
      obtain rfl : s = s' := Option.some.inj (hs.symm.trans hs')
      exact hgone

theorem find_run {taskId : String} (ht : w.tasks.find? taskId = some t) :
    (find taskId).run.run env w = (.ok t, w) := by
  unfold find
  rw [Attempt.run_effect_bind, Program.run_perform]
  simp only [Effect.perform, ht]
  rfl

theorem document_run {taskId : String} (ht : w.tasks.find? taskId = some t) :
    ((g.document taskId).run.run env w).1 = .ok (g.documentOf ((g.refreshed t).run env w).1) := by
  unfold document
  rw [Attempt.run_bind_of_ok (find_run ht), Attempt.run_bind_of_ok (Attempt.run_lift _ env w)]
  rfl

theorem documentOf_url {c : Channel} (hs : t.status = .success)
    (hc : g.registry.byId? t.channelId = some c) (hurl : t.resultUrl.isSome = true)
    (link : Option String) :
    (g.documentOf { t with storageUrl := link }).url = (link <|> c.shownUrl? t) := by
  have hdocument : g.documentOf { t with storageUrl := link } =
      c.document { t with storageUrl := link } := by
    unfold documentOf
    rw [hc]
  rw [hdocument, c.document_url hs hurl]

def contentResponse : Except ContentError Http.Response → Http.Response
  | .ok response => forEveryOrigin response
  | .error e => forEveryOrigin e.response

theorem handle_content_run {r : Http.Request} {taskId : String} (hmethod : r.method = .get)
    (hroute : Route.ofTarget? r.target = some (.content (some taskId))) (g : Gateway)
    (cancelled : Bool) (now : Instant) (env : Surroundings σ) (w : World σ) :
    (g.handle r cancelled now).run env w =
      (contentResponse ((g.content taskId).run.run env w).1,
        ((g.content taskId).run.run env w).2) := by
  rw [handle_reading hroute (.inl hmethod) nofun, Program.run_map]
  unfold answer.answerGet
  rw [Program.run_bind, hmethod]
  cases ((g.content taskId).run.run env w).1 <;> rfl

/-- Clients are sent to a link, and nothing is called. -/
structure Redirects (link : String) (w : World σ) (answer : Http.Response × World σ) : Prop where
  status : answer.1.status = .found
  location : ∃ value, Http.HeaderValue.ofText? link = some value ∧
    answer.1.headers.get? "location" = some value
  events : answer.2.events = w.events

/-- A call is made until its outcome stands or the retries are used up. The body of the
last reply is passed on if the reply has the status 200, and otherwise a bad gateway is
reported. -/
def Relays (g : Gateway) (env : Surroundings σ) (outside : σ) (w : World σ) (call : Http.Call)
    (answer : Http.Response × World σ) : Prop :=
  ∃ k, IsLeast (Http.RetryPolicy.endings env call outside g.retries.maxRetries) k ∧
    answer.2.events = w.events ++ .called call :: g.retries.repeats call 0 k ∧
    ((∃ r, env.outcome call outside k = .ok r ∧ r.status = .ok ∧ answer.1.status = .ok ∧
      answer.1.body = r.body ∧ answer.1.complete = r.complete) ∨
    (∀ r, env.outcome call outside k = .ok r → r.status ≠ .ok) ∧ answer.1.status = .badGateway)

theorem served_redirects {c : Channel} {link : String} (hs : t.status = .success)
    (hc : g.registry.byId? t.channelId = some c)
    (hplace : g.contentPlace c ((g.refreshed t).run env w).1 = .ok (.redirect link))
    (hheader : (Http.HeaderValue.ofText? link).isSome = true) :
    Redirects link w (contentResponse ((g.served t).run.run env w).1,
      ((g.served t).run.run env w).2) := by
  obtain ⟨value, hvalue⟩ := Option.isSome_iff_exists.mp hheader
  have hredirection : redirection link = .ok ⟨.found, [("location", value)], [], true⟩ := by
    unfold redirection
    rw [hvalue]
  rw [served_run hs hc rfl, hplace]
  dsimp only
  rw [hredirection]
  exact ⟨rfl, ⟨value, hvalue, rfl⟩, g.refreshed_events t env w⟩

theorem served_relays {c : Channel} {call : Http.Call} (hs : t.status = .success)
    (hc : g.registry.byId? t.channelId = some c)
    (hplace : g.contentPlace c ((g.refreshed t).run env w).1 = .ok (.fetch call)) :
    g.Relays env ((g.refreshed t).run env w).2.outside w call
      (contentResponse ((g.served t).run.run env w).1, ((g.served t).run.run env w).2) := by
  obtain ⟨k, hk, hrun⟩ := g.retries.download_run_eq call env ((g.refreshed t).run env w).2
  rw [served_run hs hc rfl, hplace]
  dsimp only
  rw [hrun, g.refreshed_events]
  refine ⟨k, hk, rfl, ?_⟩
  cases env.outcome call ((g.refreshed t).run env w).2.outside k with
  | error failure => exact .inr ⟨nofun, rfl⟩
  | ok r =>
    by_cases hstatus : r.status = .ok
    · rw [show ofContentReply (.ok r) = .ok (forwarded r) from if_pos hstatus]
      exact .inl ⟨r, rfl, hstatus, rfl, rfl, rfl⟩
    · rw [show ofContentReply (.ok r) = .error (.refused r.status) from if_neg hstatus]
      exact .inr ⟨fun _ hr => Except.ok.inj hr ▸ hstatus, rfl⟩

/-- A video of which the bucket has the copy is served from there: clients are sent to the
link where a domain serves stored videos, and otherwise the link is fetched without any
header field. -/
theorem served_of_hasCopy {c : Channel} {link : String} (hs : t.status = .success)
    (hc : g.registry.byId? t.channelId = some c)
    (hdomain : ∀ s domain, g.storage = some s → s.redirectDomain = some domain →
      s.location.publicBase = domain ∧ (Http.HeaderValue.ofText? domain).isSome = true)
    (hcopy : g.HasCopy w.bucket t link)
    (hshown : ((g.refreshed t).run env w).1 = { t with storageUrl := some link }) :
    let answer := (contentResponse ((g.served t).run.run env w).1, ((g.served t).run.run env w).2)
    ((g.storage.bind (·.redirectDomain)).isSome = true → Redirects link w answer) ∧
    (g.storage.bind (·.redirectDomain) = none →
      g.Relays env ((g.refreshed t).run env w).2.outside w (.get link []) answer) := by
  obtain ⟨key, s, -, hstorage, -, hlink⟩ := hcopy
  refine ⟨fun hredirects => served_redirects hs hc ?_ ?_, fun hnone => served_relays hs hc ?_⟩
  · rw [hshown]
    exact if_pos hredirects
  · -- The link begins with the domain, and what follows it has no control characters.
    rw [hstorage] at hredirects
    obtain ⟨domain, hd⟩ := Option.isSome_iff_exists.mp hredirects
    obtain ⟨hbase, hheader⟩ := hdomain s domain hstorage hd
    exact BucketLocation.link_isHeader (hbase ▸ hheader) hlink
  · rw [hshown]
    exact contentPlace_eq_fetch_iff.mpr (.inl ⟨link, rfl, hnone, rfl⟩)

theorem served_of_lacksCopy {c : Channel} {call : Http.Call} (hs : t.status = .success)
    (hc : g.registry.byId? t.channelId = some c) (hcall : c.contentCall? t = some call)
    (hshown : ((g.refreshed t).run env w).1 = { t with storageUrl := none }) :
    g.Relays env ((g.refreshed t).run env w).2.outside w call
      (contentResponse ((g.served t).run.run env w).1, ((g.served t).run.run env w).2) := by
  refine served_relays hs hc ?_
  rw [hshown]
  exact contentPlace_eq_fetch_iff.mpr (.inr ⟨rfl, hcall⟩)

/-- Whatever has been done before, a request for the octets of a video leaves the store
alone. A task that is not known, or not completed, gets an error, and nothing is called.
A completed one is served from the stored copy if the bucket has it, and from the vendor
otherwise, and the address in its document is that of the same one. The domain of a
storage that is configured begins its links by `Storage.publicBase_of_ofConfig`. -/
theorem content_served {r : Http.Request} {taskId : String} (hmethod : r.method = .get)
    (hroute : Route.ofTarget? r.target = some (.content (some taskId)))
    (hid : Text.isBlankText taskId = false) {g : Gateway} {env₀ : Surroundings τ} {w₀ : World τ}
    {history : List Session.Turn}
    (hreached : w.tasks = ((Session.opened w₀.withoutTasks).after g env₀ history).world.tasks)
    (hdomain : ∀ s domain, g.storage = some s → s.redirectDomain = some domain →
      s.location.publicBase = domain ∧ (Http.HeaderValue.ofText? domain).isSome = true)
    (hlookup : ∀ t, w.tasks.find? taskId = some t → g.LooksUp env w t) (cancelled : Bool)
    (now : Instant) :
    let answer := (g.handle r cancelled now).run env w
    answer.2.tasks = w.tasks ∧
    (w.tasks.find? taskId = none → answer.1.status = .notFound ∧ answer.2.events = w.events) ∧
    ∀ t, w.tasks.find? taskId = some t →
      (t.status ≠ .success → answer.1.status = .badRequest ∧ answer.2.events = w.events) ∧
      (t.status = .success → ∃ c d, g.registry.byId? t.channelId = some c ∧
        ((g.document taskId).run.run env w).1 = .ok d ∧
        let fetched call := g.Relays env ((g.refreshed t).run env w).2.outside w call answer
        ((∃ link, g.HasCopy w.bucket t link ∧ d.url = some link ∧
            ((g.storage.bind (·.redirectDomain)).isSome = true → Redirects link w answer) ∧
            (g.storage.bind (·.redirectDomain) = none → fetched (.get link []))) ∨
          g.LacksCopy w.bucket t ∧ d.url = c.shownUrl? t ∧
            ∃ call, c.contentCall? t = some call ∧ fetched call)) := by
  intro answer
  have hanswer : answer = (contentResponse ((g.content taskId).run.run env w).1,
      ((g.content taskId).run.run env w).2) := handle_content_run hmethod hroute ..
  refine ⟨?_, fun hnone => ?_, fun t ht => ⟨fun hs => ?_, fun hs => ?_⟩⟩
  · rw [hanswer]
    exact (g.content_ensures taskId trivial (fun _ => trivial) (fun _ => trivial)
      fun _ => trivial).run_tasks env w
  · rw [hanswer, g.content_run hid, hnone]
    exact ⟨rfl, rfl⟩
  · rw [hanswer, g.content_run hid, ht]
    dsimp only
    rw [served_run_of_unfinished hs]
    exact ⟨rfl, rfl⟩
  · rw [hanswer, g.content_run hid, ht]
    have hservable : g.Servable t := g.servable_of_find? env₀ w₀ history (hreached ▸ ht)
    obtain ⟨c, headers, hc, hheaders⟩ := hservable.channel hs
    obtain ⟨call, hcall⟩ := Channel.exists_contentCall hheaders (hservable.resultUrl hs)
    refine ⟨c, _, hc, document_run ht, ?_⟩
    have hshows := documentOf_url hs hc (hservable.resultUrl hs)
    rcases refreshed_cases hservable (hlookup t ht) with ⟨link, hcopy, hshown⟩ | ⟨hlacks, hshown⟩
    · refine .inl ⟨link, hcopy, ?_, served_of_hasCopy hs hc hdomain hcopy hshown⟩
      rw [hshown, hshows]
      rfl
    · refine .inr ⟨hlacks, ?_, call, hcall, served_of_lacksCopy hs hc hcall hshown⟩
      rw [hshown, hshows]
      rfl

def servingConfig : StorageConfig where
  kind := .minio
  endpoint := "minio.test:9000"
  accessKeyId := "id"
  accessKeySecret := "secret"
  bucketName := "videos"
  region := ""
  secure := true
  basePath := ""
  domain := some "https://cdn.test"
  signsLinks := false
  linkLifetime := StorageConfig.defaultLifetime
  autoUpload := true

def servingStorage : Storage :=
  ⟨⟨"minio", "", "https://cdn.test", none⟩, true, some "https://cdn.test"⟩

theorem servingStorage_ofConfig : Storage.ofConfig servingConfig = .ok (some servingStorage) := by
  decide +kernel

def servingSample : Gateway :=
  { sample with storage := some servingStorage }

def servingWorld : World Unit :=
  let w := ((servingSample.submit Request.sample false ⟨0⟩).run.run sampleSurroundings
    (World.fresh .starter ()).withoutTasks).2
  ((servingSample.poll 7 "t1" false ⟨1⟩).run.run sampleSurroundings w).2

theorem servingWorld_reached : servingSample.Reaches sampleSurroundings
    (World.fresh .starter ()).withoutTasks servingWorld :=
  .tail (.single (.submit Request.sample false ⟨0⟩)) (.poll 7 "t1" false ⟨1⟩)

def koiContent : Http.Request :=
  ⟨.get, "/v1/videos/t1/content", [], []⟩

theorem koiContent_route :
    Route.ofTarget? koiContent.target = some (.content (some "t1")) := by
  decide +kernel

/-- Clients are sent to the stored copy. -/
theorem koiContent_redirected : ∃ t link, servingWorld.tasks.find? "t1" = some t ∧
    servingSample.HasCopy servingWorld.bucket t link ∧
    Redirects link servingWorld ((servingSample.handle koiContent false ⟨2⟩).run
      sampleSurroundings servingWorld) := by
  have hcopied : (servingWorld.tasks.find? "t1").map (fun t => (t.status, t.storageKey)) =
      some (.success, some "1970/01/01/t1.mp4") := by
    decide +kernel
  have hfound : ((servingStorage.location.storedLink "1970/01/01/t1.mp4").run.run
      sampleSurroundings servingWorld).1 = .ok (some "https://cdn.test/1970/01/01/t1.mp4") := by
    decide +kernel
  have hthere : (servingWorld.bucket.get?
      (servingStorage.location.objectPath "1970/01/01/t1.mp4")).isSome = true := by
    obtain ⟨_, -, hthere, -⟩ | ⟨hnone, -⟩ := BucketLocation.storedLink_run hfound
    · exact hthere
    · cases hnone
  obtain ⟨t, ht, htask⟩ := Option.map_eq_some_iff.mp hcopied
  obtain ⟨hstatus, hkey⟩ := Prod.mk.inj htask
  obtain ⟨history, hworld⟩ := Session.exists_of_reaches servingWorld_reached
  have hdomain : ∀ s domain, servingSample.storage = some s → s.redirectDomain = some domain →
      s.location.publicBase = domain ∧ (Http.HeaderValue.ofText? domain).isSome = true := by
    rintro s domain ⟨⟩ hd
    refine ⟨Storage.publicBase_of_ofConfig servingStorage_ofConfig hd, ?_⟩
    obtain rfl := Option.some.inj hd
    decide +kernel
  have hlookup : ∀ u, servingWorld.tasks.find? "t1" = some u →
      servingSample.LooksUp sampleSurroundings servingWorld u := by
    rintro u hu key s hkey' ⟨⟩
    obtain rfl : t = u := Option.some.inj (ht.symm.trans hu)
    obtain rfl : _ = key := Option.some.inj (hkey.symm.trans hkey')
    exact ⟨_, hfound⟩
  obtain ⟨-, -, hserved⟩ := content_served rfl koiContent_route (by decide)
    (congrArg World.tasks hworld.symm) hdomain hlookup false ⟨2⟩
  obtain ⟨c, d, -, -, ⟨link, hcopy, -, hredirects, -⟩ | ⟨hlacks, -⟩⟩ := (hserved t ht).2 hstatus
  · exact ⟨t, link, ht, hcopy, hredirects rfl⟩
  · rw [hlacks _ _ hkey rfl] at hthere
    cases hthere

end Gateway

end VideoGateway

import VideoGateway.Gateway.Content
import VideoGateway.Proofs.Gateway.Effects
import VideoGateway.Proofs.Vendor.Outcome

/-!
# What the parts of the gateway reach for

Downloads reach for one call and for waits, copies for the bucket as well, and
questions to a vendor for the calls of its channel. None of them, and nothing
that only shows a task, writes to the store.
-/
namespace VideoGateway

open Attempt (Ensures)

variable {P : Effect → Prop}

theorem Registry.mem_of_resolve {r : Registry} {c : Channel} {model name : String}
    (h : r.resolve model = .ok (c, name)) : c ∈ r := by
  unfold resolve at h
  split at h
  · cases h
  · split at h
    · cases h
    · next hfind =>
      cases h
      exact List.mem_of_find?_eq_some hfind

namespace Http.RetryPolicy

theorem attempts_ensures (p : RetryPolicy) {c : Call} (hcall : P (.call c))
    (hwait : ∀ ms, P (.wait ms)) (left attempt : Nat) :
    (p.attempts c left attempt).Ensures P fun _ => True := by
  induction left generalizing attempt with
  | zero => exact .effect hcall
  | succ left ih =>
    refine (Program.Ensures.effect hcall).bind fun reply _ => ?_
    split
    · exact (Program.Ensures.effect (hwait _)).bind fun _ _ => ih (attempt + 1)
    · exact .done trivial

theorem download_ensures (p : RetryPolicy) {c : Call} (hcall : P (.call c))
    (hwait : ∀ ms, P (.wait ms)) : (p.download c).Ensures P fun _ => True :=
  p.attempts_ensures hcall hwait _ _

end Http.RetryPolicy

namespace Storage

/-- Stores what the reply to the download of a video brings. -/
def storeReply (s : Storage) (url taskId : String) (now : Instant) :
    Http.Reply → Attempt StorageError StoredVideo
  | .error failure => throw (.download url failure.text)
  | .ok response => do
    if !response.status.isSuccess then
      throw (.download url ("upstream returned " ++ response.status.text))
    let contentType :=
      ((response.headers.get? "content-type").bind Http.HeaderValue.toText?).getD ""
    let key := VideoKey.make taskId (VideoKey.extension url contentType) now
    let link ← s.location.upload key (piecesOf url response) response.headers.length?
      (VideoKey.mediaType contentType)
    let received := response.body.length
    let stored ← s.location.measure key
    if stored != received then
      let _ ← ExceptT.lift (s.location.remove key).run
      throw (.incomplete received stored)
    pure ⟨key, link, received⟩

theorem copyVideo_eq (s : Storage) (policy : Http.RetryPolicy) (url taskId : String)
    (now : Instant) : s.copyVideo policy url taskId now =
      ExceptT.lift (policy.download (.get url [])) >>= s.storeReply url taskId now := rfl

end Storage

section Bucket

variable (hbucket : ∀ op, P (.bucket op))
include hbucket

theorem Attempt.bucket_ensures (op : Bucket.Operation) :
    Ensures P (fun _ => True) (Attempt.bucket op) :=
  (Program.Ensures.effect (hbucket op)).map fun _ _ _ _ => trivial

namespace BucketLocation

variable (l : BucketLocation) (key : String)

theorem upload_ensures (pieces : List Piece) (size : Option Nat) (mediaType : String) :
    Ensures P (fun _ => True) (l.upload key pieces size mediaType) := by
  unfold upload
  refine (Attempt.bucket_ensures hbucket _).bind fun _ _ => ?_
  split
  · refine (Ensures.lift (.effect (hbucket _))).bind fun _ _ => ?_
    exact .throw _
  · split
    · refine (Attempt.bucket_ensures hbucket _).bind fun _ _ => ?_
      exact .throw _
    · refine (Attempt.bucket_ensures hbucket _).bind fun _ _ => ?_
      exact .ofExcept fun _ _ => trivial

theorem measure_ensures : Ensures P (fun _ => True) (l.measure key) :=
  Attempt.bucket_ensures hbucket (.measure _)

theorem remove_ensures : Ensures P (fun _ => True) (l.remove key) :=
  Attempt.bucket_ensures hbucket (.remove _)

theorem contains_ensures : Ensures P (fun _ => True) (l.contains key) := by
  unfold contains
  refine (Ensures.lift (l.measure_ensures hbucket key)).bind fun r _ => ?_
  split
  · exact .pure trivial
  · exact .pure trivial
  · exact .throw _

theorem storedLink_ensures : Ensures P (fun _ => True) (l.storedLink key) := by
  unfold storedLink
  refine (l.contains_ensures hbucket key).bind fun there _ => ?_
  split
  · refine .ofExcept_bind fun _ => ?_
    exact .pure trivial
  · exact .pure trivial

end BucketLocation

theorem Storage.storeReply_ensures (s : Storage) (url taskId : String) (now : Instant)
    (reply : Http.Reply) : Ensures P (fun _ => True) (s.storeReply url taskId now reply) := by
  unfold storeReply
  split
  · exact .throw _
  · split
    · exact .throw_bind _ _
    · refine (s.location.upload_ensures hbucket _ _ _ _).bind fun _ _ => ?_
      refine (s.location.measure_ensures hbucket _).bind fun stored _ => ?_
      split
      · refine (Ensures.lift (s.location.remove_ensures hbucket _)).bind fun _ _ => ?_
        exact .throw _
      · exact .pure trivial

theorem Storage.copyVideo_ensures (s : Storage) (policy : Http.RetryPolicy) {url : String}
    (taskId : String) (now : Instant) (hcall : P (.call (.get url [])))
    (hwait : ∀ ms, P (.wait ms)) :
    Ensures P (fun _ => True) (s.copyVideo policy url taskId now) := by
  rw [copyVideo_eq]
  refine (Ensures.lift (policy.download_ensures hcall hwait)).bind fun reply _ => ?_
  exact s.storeReply_ensures hbucket url taskId now reply

end Bucket

namespace Gateway

theorem callUnless_ensures (cancelled : Bool) {c : Http.Call} (hcall : P (.call c)) :
    Ensures P (fun _ => True) (callUnless cancelled c) := by
  unfold callUnless
  split
  · exact .throw _
  · exact .effect hcall

theorem ask_ensures (cancelled : Bool) {call : Except TaskError Http.Call}
    (hcall : ∀ c, call = .ok c → P (.call c)) :
    Ensures P (fun _ => ∃ c, call = .ok c) (ask cancelled call) := by
  unfold ask
  refine (Ensures.ofExcept fun _ h => h).bind fun c hc => ?_
  refine (callUnless_ensures cancelled (hcall c hc)).bind fun _ _ => ?_
  exact .ofExcept fun _ _ => ⟨c, hc⟩

theorem fetchStatus_ensures (c : Channel) (taskId : String) (cancelled : Bool)
    (hstatus : ∀ call, c.statusCall taskId = .ok call → P (.call call))
    (hfile : ∀ fileId call, c.fileCall fileId = .ok call → P (.call call)) :
    Ensures P (fun _ => ∃ call, c.statusCall taskId = .ok call)
      (fetchStatus c taskId cancelled) := by
  unfold fetchStatus
  refine (ask_ensures cancelled hstatus).bind fun body hmade => ?_
  split
  · exact .pure hmade
  · exact .pure hmade
  · split
    · exact .pure hmade
    · next fileId _ =>
      refine (ask_ensures cancelled (hfile fileId)).bind fun _ _ => ?_
      refine .ofExcept_bind fun _ => ?_
      exact .pure hmade

theorem acceptedTask_eq_ok {v : Vendor} {reply : Http.Reply} {a : AcceptedTask}
    (h : acceptedTask v reply = .ok a) : ∃ status body, v.accepted status body = .ok a := by
  unfold acceptedTask at h
  split at h
  · cases h
  · next response =>
    split at h
    · exact ⟨response.status, response.body, h⟩
    · cases h

variable (g : Gateway)

/-- The record of a task that a channel of the gateway has got accepted. -/
def Accepts (t : Task) : Prop :=
  ∃ c ∈ g.registry, ∃ status body accepted action params ratio now,
    c.vendor.accepted status body = .ok accepted ∧
    t = .submitted accepted.id c.id action params ratio accepted.data now

theorem submit_ensures (r : Request) (cancelled : Bool) (now : Instant) (hrules : P .priceRules)
    (hcall : ∀ c ∈ g.registry, ∀ payload call, c.submitCall payload = .ok call → P (.call call))
    (hinsert : ∀ t, g.Accepts t → P (.insertTask t)) :
    Ensures P (fun _ => True) (g.submit r cancelled now) := by
  unfold submit
  refine (Ensures.ofExcept fun _ h => h).bind fun found hroute => ?_
  obtain ⟨channel, model⟩ := found
  have hmem : channel ∈ g.registry := Registry.mem_of_resolve hroute
  refine Ensures.ofExcept_bind fun prepared => ?_
  obtain ⟨action, params⟩ := prepared
  refine (Ensures.effect hrules).bind fun rules _ => ?_
  refine Ensures.ofExcept_bind fun payload => ?_
  refine (Ensures.ofExcept (hcall channel hmem payload)).bind fun call hmade => ?_
  refine (callUnless_ensures cancelled hmade).mapError.bind fun reply _ => ?_
  refine (Ensures.ofExcept fun _ h => h).bind fun accepted haccepted => ?_
  obtain ⟨status, body, hbody⟩ := acceptedTask_eq_ok haccepted
  have haccepts : g.Accepts (.submitted accepted.id channel.id action params
      (rules.ratio params.model params.billing) accepted.data now) :=
    ⟨channel, hmem, status, body, accepted, action, params, _, now, hbody, rfl⟩
  refine (Ensures.effect (hinsert _ haccepts)).bind fun answer _ => ?_
  cases answer with
  | error e => exact .throw _
  | ok _ => exact .pure trivial

/-- What is told of a task is what an answer means to the task's own channel, which
has asked for it. -/
def Tells (t : Task) (told : Outcome × Json) : Prop :=
  ∃ c call body, g.channelOf t = .ok c ∧ c.statusCall t.id = .ok call ∧
    c.outcome body = .ok told.1 ∧ told.2 = rawValue body

theorem Tells.sound {g : Gateway} {t : Task} {told : Outcome × Json} (h : g.Tells t told) :
    told.1.Sound := by
  obtain ⟨c, call, body, -, -, houtcome, -⟩ := h
  exact Channel.outcome_sound houtcome

theorem report_ensures (t : Task) (cancelled : Bool)
    (hstatus : ∀ c call, g.channelOf t = .ok c → c.statusCall t.id = .ok call → P (.call call))
    (hfile : ∀ c fileId call, g.channelOf t = .ok c → c.fileCall fileId = .ok call →
      P (.call call)) :
    Ensures P (g.Tells t) (g.report t cancelled) := by
  unfold report
  refine (Ensures.ofExcept fun _ hc => hc).bind fun c hc => ?_
  refine (fetchStatus_ensures c t.id cancelled (fun call => hstatus c call hc)
    (fun fileId call => hfile c fileId call hc)).mapError.bind fun body hmade => ?_
  obtain ⟨call, hcall⟩ := hmade
  refine (Ensures.ofExcept fun _ ho => ho).bind fun o ho => ?_
  exact .pure ⟨c, call, body, hc, hcall, ho, rfl⟩

theorem withCopy_notes (t : Task) (now : Instant)
    (hcall : ∀ url, t.resultUrl = some url → P (.call (.get url [])))
    (hwait : ∀ ms, P (.wait ms)) (hbucket : ∀ op, P (.bucket op)) :
    (g.withCopy t now).Ensures P fun t' =>
      t' = t ∨ g.storage.isSome = true ∧ ∃ key url, t' = t.withStored key url := by
  unfold withCopy
  split
  · next storage url hstorage hurl =>
    have hsome : g.storage.isSome = true :=
      Option.isSome_of_mem (Option.eq_some_of_filter_eq_some hstorage)
    refine Program.Ensures.bind
      (storage.copyVideo_ensures hbucket g.retries t.id now (hcall url hurl) hwait) fun r _ => ?_
    split
    · exact .done (.inr ⟨hsome, _, _, rfl⟩)
    · exact .done (.inl rfl)
  · exact .done (.inl rfl)

theorem withCopy_ensures (t : Task) (now : Instant)
    (hcall : ∀ url, t.resultUrl = some url → P (.call (.get url [])))
    (hwait : ∀ ms, P (.wait ms)) (hbucket : ∀ op, P (.bucket op)) :
    (g.withCopy t now).Ensures P fun t' => t' = t ∨ ∃ key url, t' = t.withStored key url :=
  (g.withCopy_notes t now hcall hwait hbucket).mono fun _ => Or.imp_right And.right

theorem withCopy_key_ensures (t : Task) (now : Instant) (hcall : ∀ c, P (.call c))
    (hwait : ∀ ms, P (.wait ms)) (hbucket : ∀ op, P (.bucket op)) :
    (if t.status = .success then g.withCopy t now else pure t).Ensures P
      fun t' => t'.key = t.key := by
  split
  · refine (g.withCopy_ensures t now (fun _ _ => hcall _) hwait hbucket).mono ?_
    rintro t' (rfl | ⟨key, url, rfl⟩)
    · rfl
    · rfl
  · exact .done rfl

theorem keep_ensures {t : Task} (hupdate : P (.updateTask t)) :
    Ensures P (fun _ => True) (keep t) := by
  unfold keep
  refine (Ensures.effect hupdate).bind fun answer _ => ?_
  cases answer with
  | error e => exact .throw _
  | ok _ => exact .pure trivial

/-- Following a task asks its channel; the record with what is told, and with the
stored copy if there is one, is written down. -/
theorem follow_ensures (t : Task) (cancelled : Bool) (now : Instant)
    (hstatus : ∀ c call, g.channelOf t = .ok c → c.statusCall t.id = .ok call → P (.call call))
    (hfile : ∀ c fileId call, g.channelOf t = .ok c → c.fileCall fileId = .ok call →
      P (.call call))
    (hcall : ∀ url, P (.call (.get url []))) (hwait : ∀ ms, P (.wait ms))
    (hbucket : ∀ op, P (.bucket op))
    (hupdate : ∀ told, g.Tells t told → P (.updateTask (t.advanced told.1 told.2 now)))
    (hstored : ∀ told key url, g.storage.isSome = true → g.Tells t told →
      P (.updateTask ((t.advanced told.1 told.2 now).withStored key url))) :
    Ensures P (fun _ => True) (g.follow t cancelled now) := by
  unfold follow
  refine (g.report_ensures t cancelled hstatus hfile).bind fun told htold => ?_
  obtain ⟨outcome, data⟩ := told
  dsimp only
  cases hadvance : t.advance? outcome data now with
  | none => exact .pure trivial
  | some t' =>
    obtain ⟨-, -, rfl⟩ := Task.advance?_eq_some_iff.mp hadvance
    have hcopy : (if (t.advanced outcome data now).status = .success then
        g.withCopy (t.advanced outcome data now) now
        else pure (t.advanced outcome data now)).Ensures P fun u => P (.updateTask u) := by
      split
      · refine (g.withCopy_notes _ now (fun url _ => hcall url) hwait hbucket).mono ?_
        rintro u (rfl | ⟨hstorage, key, url, rfl⟩)
        · exact hupdate _ htold
        · exact hstored _ key url hstorage htold
      · exact .done (hupdate _ htold)
    exact (Ensures.lift hcopy).bind fun u hu => keep_ensures hu

theorem expireAll_ensures (asOf : Instant) (timeout : Int) (now : Instant) (ts : List Task)
    (hupdate : ∀ t ∈ ts, P (.updateTask (t.advanced timedOut t.data now))) :
    Ensures P (fun _ => True) (expireAll asOf timeout now ts) := by
  induction ts with
  | nil => exact .pure trivial
  | cons t ts ih =>
    obtain ⟨hfirst, hrest⟩ := List.forall_mem_cons.mp hupdate
    unfold expireAll
    split
    · exact ih hrest
    · cases hadvance : t.advance? timedOut t.data now with
      | none => exact ih hrest
      | some t' =>
        obtain ⟨-, -, rfl⟩ := Task.advance?_eq_some_iff.mp hadvance
        refine (keep_ensures hfirst).bind fun _ _ => ?_
        exact (ih hrest).bind fun _ _ => .pure trivial

theorem refreshed_ensures (t : Task) (hbucket : ∀ op, P (.bucket op)) :
    (g.refreshed t).Ensures P fun t' => ∃ link, t' = { t with storageUrl := link } := by
  unfold refreshed
  split
  · next key storage _ _ =>
    refine Program.Ensures.bind (storage.location.storedLink_ensures hbucket key) fun r _ => ?_
    split
    · exact .done ⟨_, rfl⟩
    · exact .done ⟨_, rfl⟩
  · exact .done ⟨_, rfl⟩

theorem find_ensures (taskId : String) (hfind : P (.findTask taskId)) :
    Ensures P (fun _ => True) (find taskId) := by
  unfold find
  refine (Ensures.effect hfind).bind fun t _ => ?_
  split
  · exact .pure trivial
  · exact .throw _

theorem document_ensures (taskId : String) (hfind : P (.findTask taskId))
    (hbucket : ∀ op, P (.bucket op)) : Ensures P (fun _ => True) (g.document taskId) := by
  unfold document
  refine (find_ensures taskId hfind).bind fun t _ => ?_
  refine (Ensures.lift (g.refreshed_ensures t hbucket)).bind fun _ _ => ?_
  exact .pure trivial

def served (t : Task) : Attempt ContentError Http.Response := do
  if t.status != .success then throw (.unfinished t.status)
  match g.registry.byId? t.channelId with
  | none => throw .unknownChannel
  | some channel =>
    let t ← ExceptT.lift (g.refreshed t)
    match ← Attempt.ofExcept id (g.contentPlace channel t) with
    | .redirect link => Attempt.ofExcept id (redirection link)
    | .fetch call =>
      let reply ← ExceptT.lift (g.retries.download call)
      Attempt.ofExcept id (ofContentReply reply)

theorem content_eq (taskId : String) : g.content taskId =
    if Text.isBlankText taskId then throw .missingTaskId
    else Attempt.effect (.findTask taskId) >>= fun
      | none => throw .unknownTask
      | some t => g.served t := by
  unfold content
  split
  · rfl
  · rfl

/-- A video is fetched from the stored copy, without header fields, if there is a link
to it, and as its channel says otherwise. -/
theorem contentPlace_eq_fetch_iff {g : Gateway} {c : Channel} {t : Task} {link : Option String}
    {call : Http.Call} :
    g.contentPlace c { t with storageUrl := link } = .ok (.fetch call) ↔
      (∃ url, link = some url ∧ (g.storage.bind (·.redirectDomain)) = none ∧ call = .get url []) ∨
        link = none ∧ c.contentCall? t = some call := by
  have hcall : c.contentCall? { t with storageUrl := link } = c.contentCall? t := rfl
  unfold contentPlace
  rw [hcall]
  cases link with
  | none =>
    cases c.contentCall? t with
    | none => simp
    | some call' => simp
  | some url =>
    cases g.storage.bind (·.redirectDomain) with
    | none => simp [eq_comm]
    | some domain => simp

theorem served_ensures (t : Task)
    (hcall : ∀ c link call, g.registry.byId? t.channelId = some c →
      g.contentPlace c { t with storageUrl := link } = .ok (.fetch call) → P (.call call))
    (hwait : ∀ ms, P (.wait ms)) (hbucket : ∀ op, P (.bucket op)) :
    Ensures P (fun _ => True) (g.served t) := by
  unfold served
  by_cases hs : (t.status != .success) = true
  · rw [if_pos hs]
    exact .throw_bind _ _
  · rw [if_neg hs]
    cases hc : g.registry.byId? t.channelId with
    | none => exact .throw _
    | some c =>
      refine (Ensures.lift (g.refreshed_ensures t hbucket)).bind fun shown hshown => ?_
      obtain ⟨link, rfl⟩ := hshown
      refine (Ensures.ofExcept fun _ h => h).bind fun place hplace => ?_
      cases place with
      | redirect link => exact .ofExcept fun _ _ => trivial
      | fetch call =>
        have hdownload := g.retries.download_ensures (hcall c link call hc hplace) hwait
        exact (Ensures.lift hdownload).bind fun _ _ => .ofExcept fun _ _ => trivial

theorem content_ensures (taskId : String) (hfind : P (.findTask taskId))
    (hcall : ∀ c, P (.call c)) (hwait : ∀ ms, P (.wait ms)) (hbucket : ∀ op, P (.bucket op)) :
    Ensures P (fun _ => True) (g.content taskId) := by
  rw [content_eq]
  split
  · exact .throw _
  · refine (Ensures.effect hfind).bind fun found _ => ?_
    cases found with
    | none => exact .throw _
    | some t => exact g.served_ensures t (fun _ _ _ _ _ => hcall _) hwait hbucket

end Gateway

end VideoGateway

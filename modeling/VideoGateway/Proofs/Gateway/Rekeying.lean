import VideoGateway.Proofs.Gateway.KeyConfinement
import VideoGateway.Proofs.Gateway.Unkeyed

/-!
# Keys of channels cannot be observed

Two gateways whose channels differ in their keys only do the same: whatever is done,
clients get the same answers and the same is stored, as long as vendors do not look at
the keys. Keys are read in one place, for the header fields of calls.
-/
namespace VideoGateway

variable {σ : Type}

namespace Channel

def withoutKey (c : Channel) : Channel :=
  { c with key := "" }

def HasUsableKey (c : Channel) : Prop :=
  (Http.HeaderValue.ofText? ("Bearer " ++ c.key)).isSome = true

theorem withoutKey_hasUsableKey (c : Channel) : c.withoutKey.HasUsableKey := by
  show (Http.HeaderValue.ofText? ("Bearer " ++ "")).isSome = true
  decide

/-- Both calls can be made, and they differ in their keys only. -/
def SameCall (call call' : Except TaskError Http.Call) : Prop :=
  ∃ c c', call = .ok c ∧ call' = .ok c' ∧ c.withoutKey = c'.withoutKey

theorem headersWith_remove (v : Vendor) (value value' : Bytes) :
    (headersWith v value).remove "authorization" =
      (headersWith v value').remove "authorization" := by
  cases v with
  | doubao | hailuo | openAi => rfl

namespace HasUsableKey

variable {c : Channel} (h : c.HasUsableKey)
include h

theorem headers : ∃ hs hs', c.headers = .ok hs ∧ c.withoutKey.headers = .ok hs' ∧
    hs.remove "authorization" = hs'.remove "authorization" := by
  obtain ⟨value, hvalue⟩ := Option.isSome_iff_exists.mp h
  obtain ⟨value', hvalue'⟩ := Option.isSome_iff_exists.mp c.withoutKey_hasUsableKey
  exact ⟨_, _, headers_eq_ok_iff.mpr ⟨value, hvalue, rfl⟩,
    headers_eq_ok_iff.mpr ⟨value', hvalue', rfl⟩, headersWith_remove c.vendor value value'⟩

theorem submitCall (payload : Json) :
    SameCall (c.submitCall payload) (c.withoutKey.submitCall payload) := by
  obtain ⟨hs, hs', hheaders, hheaders', hsame⟩ := h.headers
  refine ⟨_, _, bind_eq_ok_iff.mpr ⟨hs, hheaders, rfl⟩,
    bind_eq_ok_iff.mpr ⟨hs', hheaders', rfl⟩, ?_⟩
  simp only [Http.Call.withoutKey, Http.Call.post, hsame]
  rfl

theorem statusCall (taskId : String) :
    SameCall (c.statusCall taskId) (c.withoutKey.statusCall taskId) := by
  obtain ⟨hs, hs', hheaders, hheaders', hsame⟩ := h.headers
  refine ⟨_, _, bind_eq_ok_iff.mpr ⟨hs, hheaders, rfl⟩,
    bind_eq_ok_iff.mpr ⟨hs', hheaders', rfl⟩, ?_⟩
  rw [show c.withoutKey.vendor = c.vendor from rfl]
  cases c.vendor with
  | doubao | hailuo | openAi =>
    simp only [Http.Call.withoutKey, Http.Call.get, hsame]
    rfl

theorem fileCall (fileId : String) :
    SameCall (c.fileCall fileId) (c.withoutKey.fileCall fileId) := by
  obtain ⟨hs, hs', hheaders, hheaders', hsame⟩ := h.headers
  refine ⟨_, _, bind_eq_ok_iff.mpr ⟨hs, hheaders, rfl⟩,
    bind_eq_ok_iff.mpr ⟨hs', hheaders', rfl⟩, ?_⟩
  simp only [Http.Call.withoutKey, Http.Call.get, hsame]
  rfl

theorem contentCall? (t : Task) :
    (c.contentCall? t).map (·.withoutKey) = (c.withoutKey.contentCall? t).map (·.withoutKey) := by
  unfold Channel.contentCall?
  rw [show c.withoutKey.vendor = c.vendor from rfl]
  cases c.vendor with
  | doubao | hailuo => rfl
  | openAi =>
    obtain ⟨value, hvalue⟩ := Option.isSome_iff_exists.mp h
    obtain ⟨value', hvalue'⟩ := Option.isSome_iff_exists.mp c.withoutKey_hasUsableKey
    simp only [bearer_eq_ok_iff.mpr hvalue, bearer_eq_ok_iff.mpr hvalue']
    rfl

end HasUsableKey

end Channel

namespace Registry

variable (r : Registry)

theorem byId?_withoutKey (id : Nat) :
    byId? (r.map Channel.withoutKey) id = (r.byId? id).map Channel.withoutKey :=
  List.find?_map

theorem resolve_withoutKey (model : String) : resolve (r.map Channel.withoutKey) model =
    (r.resolve model).map fun found => (found.1.withoutKey, found.2) := by
  unfold resolve
  cases Vendor.route? model with
  | none => rfl
  | some routed =>
    dsimp only
    rw [show List.find? (fun c => c.vendor == routed.1) (r.map Channel.withoutKey) =
      (List.find? (fun c => c.vendor == routed.1) r).map Channel.withoutKey from List.find?_map]
    cases List.find? (fun c => c.vendor == routed.1) r <;> rfl

end Registry

namespace Http.RetryPolicy

theorem attempts_alike (p : RetryPolicy) {c c' : Call} (h : c.withoutKey = c'.withoutKey)
    (left attempt : Nat) : (p.attempts c left attempt).Alike (p.attempts c' left attempt) := by
  induction left generalizing attempt with
  | zero => exact Program.alike_call h
  | succ left ih =>
    refine (Program.alike_call h).bind fun reply => ?_
    split
    · exact (Program.Alike.refl _).bind fun _ => ih (attempt + 1)
    · exact .refl _

theorem download_alike (p : RetryPolicy) {c c' : Call} (h : c.withoutKey = c'.withoutKey) :
    (p.download c).Alike (p.download c') :=
  p.attempts_alike h _ _

end Http.RetryPolicy

namespace Gateway

def withoutChannelKeys (g : Gateway) : Gateway :=
  { g with registry := g.registry.map Channel.withoutKey }

/-- Header values can carry the keys of all channels. -/
def HasUsableKeys (g : Gateway) : Prop :=
  ∀ c ∈ g.registry, c.HasUsableKey

theorem callUnless_alike (cancelled : Bool) {c c' : Http.Call}
    (h : c.withoutKey = c'.withoutKey) :
    (callUnless cancelled c).Alike (callUnless cancelled c') := by
  cases cancelled with
  | true => exact .refl _
  | false => exact .lift (Program.alike_call h)

theorem ask_alike (cancelled : Bool) {call call' : Except TaskError Http.Call}
    (h : Channel.SameCall call call') : (ask cancelled call).Alike (ask cancelled call') := by
  obtain ⟨c, c', hc, hc', hsame⟩ := h
  refine .ofExcept_bind_ok id hc hc' ?_
  exact (callUnless_alike cancelled hsame).bind fun _ => .refl _

theorem fetchStatus_alike {c : Channel} (hc : c.HasUsableKey) (taskId : String)
    (cancelled : Bool) :
    (fetchStatus c taskId cancelled).Alike (fetchStatus c.withoutKey taskId cancelled) := by
  refine (ask_alike cancelled (hc.statusCall taskId)).bind fun body => ?_
  rw [show c.withoutKey.vendor = c.vendor from rfl]
  cases c.vendor with
  | doubao | openAi => exact .refl _
  | hailuo =>
    dsimp only
    cases Hailuo.fileToFind? body with
    | none => exact .refl _
    | some fileId => exact (ask_alike cancelled (hc.fileCall fileId)).bind fun _ => .refl _

variable {g : Gateway}

theorem respond_alike {a b : Attempt GatewayError Json} (h : a.Alike b) :
    (respond a).Alike (respond b) :=
  Program.Alike.bind h fun _ => .refl _

theorem document_alike (g : Gateway) (taskId : String) :
    (g.document taskId).Alike (g.withoutChannelKeys.document taskId) := by
  have hshown (t : Task) : g.withoutChannelKeys.documentOf t = g.documentOf t := by
    unfold documentOf withoutChannelKeys
    rw [Registry.byId?_withoutKey]
    cases g.registry.byId? t.channelId <;> rfl
  unfold document
  simp only [hshown]
  exact .refl _

theorem modelList_withoutChannelKeys (g : Gateway) :
    g.withoutChannelKeys.modelList = g.modelList := by
  unfold modelList withoutChannelKeys
  rw [List.flatMap_map]
  rfl

theorem channelOf_withoutChannelKeys (g : Gateway) (t : Task) :
    g.withoutChannelKeys.channelOf t = (g.channelOf t).map Channel.withoutKey := by
  unfold channelOf withoutChannelKeys
  rw [Registry.byId?_withoutKey]
  cases g.registry.byId? t.channelId <;> rfl

section Alike

variable (hg : g.HasUsableKeys)
include hg

theorem submit_alike (r : Request) (cancelled : Bool) (now : Instant) :
    (g.submit r cancelled now).Alike (g.withoutChannelKeys.submit r cancelled now) := by
  unfold submit Attempt.ofTask
  rw [show g.withoutChannelKeys.registry = g.registry.map Channel.withoutKey from rfl,
    Registry.resolve_withoutKey]
  cases hroute : g.registry.resolve r.model with
  | error e => exact .refl _
  | ok found =>
    obtain ⟨c, model⟩ := found
    have hc : c.HasUsableKey := hg c (Registry.mem_of_resolve hroute)
    refine .ofExcept_bind_ok _ rfl rfl ?_
    refine .ofExcept_bind _ _ fun prepared _ => ?_
    refine Attempt.Alike.bind (.refl _) fun rules => ?_
    refine .ofExcept_bind _ _ fun payload _ => ?_
    obtain ⟨call, call', hcall, hcall', hsame⟩ := hc.submitCall payload
    refine .ofExcept_bind_ok _ hcall hcall' ?_
    exact (callUnless_alike cancelled hsame).mapError.bind fun _ => .refl _

theorem report_alike (t : Task) (cancelled : Bool) :
    (g.report t cancelled).Alike (g.withoutChannelKeys.report t cancelled) := by
  unfold report
  rw [channelOf_withoutChannelKeys]
  cases hchannel : g.channelOf t with
  | error e => exact .refl _
  | ok c =>
    refine .ofExcept_bind_ok _ rfl rfl ?_
    exact (fetchStatus_alike (hg c (mem_of_channelOf hchannel)) t.id cancelled).mapError.bind
      fun _ => .refl _

theorem poll_alike (channelId : Nat) (taskId : String) (cancelled : Bool) (now : Instant) :
    (g.poll channelId taskId cancelled now).Alike
      (g.withoutChannelKeys.poll channelId taskId cancelled now) := by
  unfold poll
  refine Attempt.Alike.bind (.refl _) fun found => ?_
  cases found with
  | none => exact .refl _
  | some t =>
    dsimp only
    split
    · exact .refl _
    · exact (report_alike hg t cancelled).bind fun _ => .refl _

theorem pollAll_alike (cancelled : Bool) (now : Instant) (ts : List Task) :
    (g.pollAll cancelled now ts).Alike (g.withoutChannelKeys.pollAll cancelled now ts) := by
  induction ts with
  | nil => exact .refl _
  | cons t ts ih =>
    exact Program.Alike.bind (poll_alike hg t.channelId t.id cancelled now) fun _ => ih

theorem pollPass_alike (timeout : Int) (cancelled : Bool) (now : Instant) :
    (g.pollPass timeout cancelled now).Alike
      (g.withoutChannelKeys.pollPass timeout cancelled now) := by
  refine (Program.Alike.refl _).bind fun _ => ?_
  exact (Program.Alike.refl _).bind fun ts => pollAll_alike hg cancelled now ts

theorem contentPlace_alike {c : Channel} (hc : c ∈ g.registry) (t : Task) :
    (∃ call call', g.contentPlace c t = .ok (.fetch call) ∧
      g.withoutChannelKeys.contentPlace c.withoutKey t = .ok (.fetch call') ∧
      call.withoutKey = call'.withoutKey) ∨
    g.withoutChannelKeys.contentPlace c.withoutKey t = g.contentPlace c t := by
  unfold contentPlace
  cases t.storageUrl with
  | some link => exact .inr rfl
  | none =>
    have hsame := (hg c hc).contentCall? t
    dsimp only
    cases hcall : c.contentCall? t with
    | none =>
      rw [hcall, Option.map_none] at hsame
      rw [Option.map_eq_none_iff.mp hsame.symm]
      exact .inr rfl
    | some call =>
      rw [hcall, Option.map_some] at hsame
      obtain ⟨call', hcall', hkeys⟩ := Option.map_eq_some_iff.mp hsame.symm
      rw [hcall']
      exact .inl ⟨call, call', rfl, rfl, hkeys.symm⟩

theorem served_alike (t : Task) : (g.served t).Alike (g.withoutChannelKeys.served t) := by
  unfold served
  by_cases hs : (t.status != .success) = true
  · rw [if_pos hs, if_pos hs]
    exact .refl _
  · rw [if_neg hs, if_neg hs,
      show g.withoutChannelKeys.registry = g.registry.map Channel.withoutKey from rfl,
      Registry.byId?_withoutKey]
    cases hc : g.registry.byId? t.channelId with
    | none => exact .refl _
    | some c =>
      refine Attempt.Alike.bind (.refl _) fun shown => ?_
      rcases contentPlace_alike hg (List.mem_of_find?_eq_some hc) shown with
        ⟨call, call', hplace, hplace', hsame⟩ | hplace
      · refine .ofExcept_bind_ok _ hplace hplace' ?_
        exact (Attempt.Alike.lift (g.retries.download_alike hsame)).bind fun _ => .refl _
      · rw [hplace]
        exact .refl _

theorem content_alike (taskId : String) :
    (g.content taskId).Alike (g.withoutChannelKeys.content taskId) := by
  rw [content_eq, content_eq]
  split
  · exact .refl _
  · refine Attempt.Alike.bind (.refl _) fun found => ?_
    cases found with
    | none => exact .refl _
    | some t => exact served_alike hg t

theorem answerGet_alike (r : Http.Request) (route place : Route) :
    (answer.answerGet g route r place).Alike
      (answer.answerGet g.withoutChannelKeys route r place) := by
  cases place with
  | root | health | submissions | priceRules => exact .refl _
  | models =>
    unfold answer.answerGet handleModels
    rw [modelList_withoutChannelKeys]
    exact .refl _
  | task id =>
    cases id with
    | none => exact .refl _
    | some id =>
      refine respond_alike (.ofExcept_bind _ _ fun _ _ => ?_)
      exact (document_alike g id).bind fun _ => .refl _
  | content id =>
    cases id with
    | none => exact .refl _
    | some id => exact Program.Alike.bind (content_alike hg id) fun _ => .refl _

theorem handleSubmit_alike (r : Http.Request) (cancelled : Bool) (now : Instant) :
    (g.handleSubmit r cancelled now).Alike (g.withoutChannelKeys.handleSubmit r cancelled now) := by
  unfold handleSubmit
  refine .ofExcept_bind _ _ fun _ _ => ?_
  refine .ofExcept_bind _ _ fun request _ => ?_
  exact (submit_alike hg request cancelled now).bind fun _ => .refl _

theorem answer_alike (route : Route) (r : Http.Request) (cancelled : Bool) (now : Instant) :
    (g.answer route r cancelled now).Alike
      (g.withoutChannelKeys.answer route r cancelled now) := by
  unfold answer
  split
  · exact respond_alike (handleSubmit_alike hg r cancelled now)
  · exact .refl _
  · exact .refl _
  · exact answerGet_alike hg r _ _
  · exact (answerGet_alike hg r _ _).map _
  · exact .refl _

theorem handle_alike (r : Http.Request) (cancelled : Bool) (now : Instant) :
    (g.handle r cancelled now).Alike (g.withoutChannelKeys.handle r cancelled now) := by
  refine Program.Alike.map _ ?_
  split
  · exact .refl _
  · exact answer_alike hg _ r cancelled now
  · exact .refl _

theorem job_alike (job : Job) : (job.program g).Alike (job.program g.withoutChannelKeys) := by
  cases job with
  | request r cancelled now => exact (handle_alike hg r cancelled now).map _
  | submit r cancelled now => exact Program.Alike.map _ (submit_alike hg r cancelled now)
  | poll c id cancelled now => exact Program.Alike.map _ (poll_alike hg c id cancelled now)
  | pass timeout cancelled now => exact (pollPass_alike hg timeout cancelled now).map _
  | document taskId => exact Program.Alike.map _ (document_alike g taskId)
  | content taskId => exact Program.Alike.map _ (content_alike hg taskId)
  | expire asOf timeout now => exact .refl _
  | setRules rules => exact .refl _

end Alike

/-- Two gateways that are the same without the keys of their channels give the same
answers and store the same, whatever is done and in whatever order of the effects. Their
calls differ in the header field that shows a key, and in nothing else. -/
theorem keys_unobservable {g h : Gateway} (hsame : g.withoutChannelKeys = h.withoutChannelKeys)
    (hg : g.HasUsableKeys) (hh : h.HasUsableKeys) {env : Surroundings σ}
    (henv : env.IgnoresKeys) (w : World σ) (history : List Session.Turn) :
    let s := (Session.opened w).after g env history
    let s' := (Session.opened w).after h env history
    s.answers = s'.answers ∧ s.world.tasks = s'.world.tasks ∧ s.world.rules = s'.world.rules ∧
      s.world.bucket = s'.world.bucket ∧
      s.world.events.map Event.withoutKey = s'.world.events.map Event.withoutKey := by
  intro s s'
  have hjobs (job : Job) : (job.program g).Alike (job.program h) :=
    (job_alike hg job).trans (hsame ▸ (job_alike hh job).symm)
  have hend : s.withoutKeys = s'.withoutKeys := Session.after_withoutKeys henv hjobs rfl history
  obtain ⟨-, hworld⟩ := Session.mk.inj hend
  obtain ⟨htasks, hrules, hbucket, hevents, -⟩ := World.mk.inj hworld
  refine ⟨?_, htasks, hrules, hbucket, hevents⟩
  rw [← s.answers_withoutKeys, hend, s'.answers_withoutKeys]

def rekeyedSample : Gateway :=
  { sample with registry := [.new 7 .doubao "http://doubao.test" "other key"] }

def sampleHistory : List Session.Turn :=
  [.start (.submit Request.sample false ⟨0⟩), .act 0, .act 0, .act 0,
    .start (.poll 7 "t1" false ⟨1⟩), .act 1, .act 1, .act 1]

/-- The sample shows its vendor other keys than it does with another key, and no
difference to anybody else. -/
theorem rekeyedSample_keys_unobservable :
    let s := (Session.opened (World.fresh .starter ())).after sample sampleSurroundings
      sampleHistory
    let s' := (Session.opened (World.fresh .starter ())).after rekeyedSample sampleSurroundings
      sampleHistory
    s.world.calls.map (·.headers) ≠ s'.world.calls.map (·.headers) ∧ s.answers = s'.answers ∧
      s.world.tasks = s'.world.tasks := by
  intro s s'
  have hkey {c : Channel} (hc : c.key = "key" ∨ c.key = "other key") : c.HasUsableKey := by
    unfold Channel.HasUsableKey
    rcases hc with hc | hc <;> rw [hc] <;> decide
  have hsample : sample.HasUsableKeys := fun c hc => by
    obtain rfl := List.mem_singleton.mp hc
    exact hkey (.inl rfl)
  have hrekeyed : rekeyedSample.HasUsableKeys := fun c hc => by
    obtain rfl := List.mem_singleton.mp hc
    exact hkey (.inr rfl)
  have hkeys : s.world.calls.map (·.headers) ≠ s'.world.calls.map (·.headers) := by
    decide +kernel
  have hignores : sampleSurroundings.IgnoresKeys := fun _ _ => rfl
  obtain ⟨hanswers, htasks, -⟩ := keys_unobservable (g := sample) (h := rekeyedSample) rfl hsample
    hrekeyed hignores (World.fresh .starter ()) sampleHistory
  exact ⟨hkeys, hanswers, htasks⟩

end Gateway

end VideoGateway

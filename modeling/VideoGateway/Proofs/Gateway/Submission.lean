import VideoGateway.Gateway.Basic
import VideoGateway.Proofs.Basic
import VideoGateway.Proofs.Gateway.Effects
import VideoGateway.Proofs.Task.Store
import VideoGateway.Proofs.Vendor.Payload

/-!
# Submissions are all or nothing

Everything that can be refused without asking the vendor is settled first: the
channel, the parameters and the call. After that one call is made, and the store
takes one record when the vendor accepts the request under an id that is free.
The call, the price and the record all go by the same parameters.
-/
namespace VideoGateway

/-- The failure is that of a request which is refused as invalid. -/
def TaskError.IsInvalid (e : TaskError) : Prop :=
  ∃ code message, e = .validation code message

theorem TaskError.IsInvalid.kind {e : TaskError} (h : e.IsInvalid) : e.kind = .validation := by
  obtain ⟨code, message, rfl⟩ := h
  rfl

theorem TaskError.IsInvalid.status {e : TaskError} (h : e.IsInvalid) :
    e.status = .badRequest := by
  obtain ⟨code, message, rfl⟩ := h
  rfl

theorem Registry.resolve_error {reg : Registry} {model : String} {e : TaskError}
    (h : reg.resolve model = .error e) : e.IsInvalid := by
  unfold resolve at h
  split at h
  · cases h
    exact ⟨_, _, rfl⟩
  · split at h <;> cases h
    exact ⟨_, _, rfl⟩

theorem Channel.submitCall_error {c : Channel} {payload : Json} {e : TaskError}
    (h : c.submitCall payload = .error e) : e.IsInvalid := by
  unfold submitCall headers bearer at h
  split at h <;> cases h
  exact ⟨_, _, rfl⟩

theorem Request.validate_error {r : Request} {e : TaskError} (h : r.validate = .error e) :
    e.IsInvalid := by
  unfold validate at h
  split at h
  · cases h
    exact ⟨_, _, rfl⟩
  · split at h <;> cases h
    exact ⟨_, _, rfl⟩

theorem Params.validate_error {p : Params} {e : TaskError} (h : p.validate = .error e) :
    e.IsInvalid := by
  unfold validate at h
  split at h <;> cases h
  exact ⟨_, _, rfl⟩

theorem readBody_error {read : Document.Reading α} {body : Bytes} {e : TaskError}
    (h : readBody read body = .error e) : ∃ code message, e = .parse code message := by
  unfold readBody at h
  split at h <;> cases h
  exact ⟨_, _, rfl⟩

namespace Vendor

theorem prepare_error {v : Vendor} {r : Request} {e : TaskError}
    (h : v.prepare r = .error e) : e.IsInvalid := by
  unfold prepare at h
  rcases bind_eq_error_iff.mp h with h | ⟨requested, -, h⟩
  · exact Request.validate_error h
  · split at h
    · rcases bind_eq_error_iff.mp h with h | ⟨action, -, h⟩
      · exact Params.validate_error h
      · cases h
    · cases h
      exact ⟨_, _, rfl⟩

theorem payload_error {v : Vendor} {p : Params} {e : TaskError}
    (h : v.payload p = .error e) : e.IsInvalid := by
  unfold payload at h
  cases v with
  | doubao | hailuo => cases h
  | openAi =>
    dsimp only at h
    split at h <;> cases h
    exact ⟨_, _, rfl⟩

/-- What is not accepted is refused by the vendor, or its acceptance cannot be read. -/
theorem accepted_error {v : Vendor} {status : Http.Status} {body : Bytes} {e : TaskError}
    (h : v.accepted status body = .error e) :
    (∃ code message, e = .vendor code message status) ∨
      status.isSuccess = true ∧ ∃ code message, e = .parse code message := by
  unfold accepted at h
  dsimp only at h
  split at h
  case isTrue hsuccess =>
    cases hread : readBody v.readAcceptance body with
    | error e' =>
      rw [hread] at h
      cases h
      exact .inr ⟨hsuccess, readBody_error hread⟩
    | ok answer =>
      rw [hread] at h
      dsimp only at h
      split at h
      · cases h
        exact .inl ⟨_, _, rfl⟩
      · split at h <;> cases h
        exact .inr ⟨hsuccess, _, _, rfl⟩
  case isFalse =>
    cases h
    exact .inl ⟨_, _, rfl⟩

end Vendor

namespace Gateway

/-- What is settled about a request before anything is sent. -/
structure Order where
  channel : Channel
  action : Action
  params : Params
  call : Http.Call

/-- Routes a request, checks it and writes the call. -/
def order (g : Gateway) (r : Request) : Except TaskError Order := do
  let (channel, model) ← g.registry.resolve r.model
  let (action, params) ← channel.vendor.prepare { r with model := model }
  let payload ← channel.vendor.payload params
  let call ← channel.submitCall payload
  pure ⟨channel, action, params, call⟩

/-- The record of an order that the vendor has accepted. -/
def Order.task (o : Order) (ratio : Binary64) (accepted : AcceptedTask) (now : Instant) : Task :=
  .submitted accepted.id o.channel.id o.action o.params ratio accepted.data now

/-- Makes the call of an order and records the task. -/
def Order.place (o : Order) (ratio : Binary64) (cancelled : Bool) (now : Instant) :
    Attempt GatewayError Receipt := do
  let reply ← (callUnless cancelled o.call).mapError .task
  let accepted ← Attempt.ofTask (acceptedTask o.channel.vendor reply)
  let task := o.task ratio accepted now
  match ← Attempt.effect (.insertTask task) with
  | .error e => throw (.store e)
  | .ok () => pure ⟨task.id, task.model, o.action, ratio⟩

variable {σ : Type} {g : Gateway} {env : Surroundings σ} {w : World σ} {r : Request}

theorem order_eq_ok_iff {o : Order} :
    g.order r = .ok o ↔ ∃ channel model action params payload headers,
      g.registry.resolve r.model = .ok (channel, model) ∧
      channel.vendor.prepare { r with model := model } = .ok (action, params) ∧
      channel.vendor.payload params = .ok payload ∧ channel.headers = .ok headers ∧
      o = ⟨channel, action, params, .post channel.submitUrl headers payload⟩ := by
  simp only [order, Channel.submitCall, bind_eq_ok_iff, Prod.exists]
  constructor
  · rintro ⟨channel, model, hroute, action, params, hprep, payload, hpay, call,
      ⟨headers, hheaders, hcall⟩, ho⟩
    cases hcall
    cases ho
    exact ⟨channel, model, action, params, payload, headers, hroute, hprep, hpay, hheaders, rfl⟩
  · rintro ⟨channel, model, action, params, payload, headers, hroute, hprep, hpay, hheaders, rfl⟩
    exact ⟨channel, model, hroute, action, params, hprep, payload, hpay, _,
      ⟨headers, hheaders, rfl⟩, rfl⟩

/-- Whatever is refused before anything is sent is refused as invalid. -/
theorem order_error {e : TaskError} (h : g.order r = .error e) : e.IsInvalid := by
  unfold order at h
  rcases bind_eq_error_iff.mp h with h | ⟨⟨channel, model⟩, -, h⟩
  · exact Registry.resolve_error h
  rcases bind_eq_error_iff.mp h with h | ⟨⟨action, params⟩, -, h⟩
  · exact Vendor.prepare_error h
  rcases bind_eq_error_iff.mp h with h | ⟨payload, -, h⟩
  · exact Vendor.payload_error h
  rcases bind_eq_error_iff.mp h with h | ⟨call, -, h⟩
  · exact Channel.submitCall_error h
  · cases h

theorem submit_run (cancelled : Bool) (now : Instant) :
    (g.submit r cancelled now).run.run env w =
      match g.order r with
      | .error e => (.error (.task e), w)
      | .ok o =>
        (o.place (w.rules.ratio o.params.model o.params.billing) cancelled now).run.run env w := by
  unfold submit order Attempt.ofTask
  rw [Attempt.run_ofExcept_bind]
  cases g.registry.resolve r.model with
  | error e => rfl
  | ok found =>
    obtain ⟨channel, model⟩ := found
    simp only [ok_bind, Attempt.run_ofExcept_bind]
    cases channel.vendor.prepare { r with model := model } with
    | error e => rfl
    | ok made =>
      obtain ⟨action, params⟩ := made
      simp only [ok_bind]
      rw [Attempt.run_effect_bind, Program.run_perform, Attempt.run_ofExcept_bind]
      cases channel.vendor.payload params with
      | error e => rfl
      | ok payload =>
        simp only [ok_bind, Attempt.run_ofExcept_bind]
        cases channel.submitCall payload with
        | error e => rfl
        | ok call => rfl

/-- Why a reply stands for no task: it is no whole answer, or not that of an acceptance. -/
theorem acceptedTask_error {v : Vendor} {reply : Http.Reply} {e : TaskError}
    (h : acceptedTask v reply = .error e) :
    (∃ code message, e = .transport code message) ∨
      ∃ answer, reply = .ok answer ∧ answer.complete = true ∧
        v.accepted answer.status answer.body = .error e := by
  cases reply with
  | error failure =>
    cases h
    exact .inl ⟨_, _, rfl⟩
  | ok answer =>
    unfold acceptedTask at h
    dsimp only at h
    split at h
    case isTrue hcomplete => exact .inr ⟨answer, rfl, hcomplete, h⟩
    case isFalse =>
      cases h
      exact .inl ⟨_, _, rfl⟩

theorem acceptedTask_error_kind {v : Vendor} {reply : Http.Reply} {e : TaskError}
    (h : acceptedTask v reply = .error e) : e.kind ≠ .validation := by
  obtain ⟨code, message, rfl⟩ | ⟨answer, -, -, hrefused⟩ := acceptedTask_error h
  · nofun
  · obtain ⟨code, message, rfl⟩ | ⟨-, code, message, rfl⟩ := Vendor.accepted_error hrefused <;>
      nofun

theorem Order.place_run (o : Order) (ratio : Binary64) (cancelled : Bool) (now : Instant) :
    (o.place ratio cancelled now).run.run env w =
      if cancelled then (.error (.task .cancelled), w) else
        let w' := { w with
          events := w.events ++ [.called o.call]
          outside := (env.reply o.call w.outside).2 }
        match acceptedTask o.channel.vendor (env.reply o.call w.outside).1 with
        | .error e => (.error (.task e), w')
        | .ok accepted =>
          match w.tasks.insert (o.task ratio accepted now) with
          | .error e => (.error (.store e), w')
          | .ok tasks =>
            (.ok ⟨accepted.id, o.params.model, o.action, ratio⟩, { w' with tasks := tasks }) := by
  cases cancelled with
  | true => rfl
  | false =>
    show Program.run env (Attempt.ofTask (acceptedTask o.channel.vendor
      (env.reply o.call w.outside).1) >>= _).run _ = _
    unfold Attempt.ofTask
    rw [Attempt.run_ofExcept_bind, if_neg Bool.false_ne_true]
    cases acceptedTask o.channel.vendor (env.reply o.call w.outside).1 with
    | error e => rfl
    | ok accepted =>
      dsimp only
      rw [Attempt.run_effect_bind, Program.run_perform]
      simp only [Effect.perform]
      cases w.tasks.insert (o.task ratio accepted now) <;> rfl

/-- How placing an order ends. -/
inductive Order.Placed (o : Order) (ratio : Binary64) (now : Instant) (w : World σ) :
    Except GatewayError Receipt × World σ → Prop
  /-- The vendor does not accept the request, or was not asked. -/
  | refused {e : TaskError} {w' : World σ} :
      e.kind ≠ .validation → w'.tasks = w.tasks → Placed o ratio now w (.error (.task e), w')
  /-- The id is not free. -/
  | taken {e : StoreError} {w' : World σ} :
      w'.tasks = w.tasks → Placed o ratio now w (.error (.store e), w')
  | recorded {accepted : AcceptedTask} {w' : World σ} :
      w'.events = w.events ++ [.called o.call] →
      w.tasks.Adds (o.task ratio accepted now) w'.tasks →
      Placed o ratio now w (.ok ⟨accepted.id, o.params.model, o.action, ratio⟩, w')

theorem Order.place_placed (o : Order) (ratio : Binary64) (cancelled : Bool) (now : Instant) :
    o.Placed ratio now w ((o.place ratio cancelled now).run.run env w) := by
  rw [place_run]
  cases cancelled with
  | true => exact .refused (e := .cancelled) (by decide) rfl
  | false =>
    rw [if_neg Bool.false_ne_true]
    cases haccepted : acceptedTask o.channel.vendor (env.reply o.call w.outside).1 with
    | error e => exact .refused (acceptedTask_error_kind haccepted) rfl
    | ok accepted =>
      dsimp only
      cases hinsert : w.tasks.insert (o.task ratio accepted now) with
      | error e => exact .taken rfl
      | ok tasks => exact .recorded rfl (TaskStore.adds_of_insert hinsert)

theorem submit_cases (g : Gateway) (env : Surroundings σ) (w : World σ) (r : Request)
    (cancelled : Bool) (now : Instant) :
    (∃ e, g.order r = .error e ∧
      (g.submit r cancelled now).run.run env w = (.error (.task e), w)) ∨
    ∃ o, g.order r = .ok o ∧
      o.Placed (w.rules.ratio o.params.model o.params.billing) now w
        ((g.submit r cancelled now).run.run env w) := by
  rw [submit_run]
  cases g.order r with
  | error e => exact .inl ⟨e, rfl, rfl⟩
  | ok o => exact .inr ⟨o, rfl, o.place_placed _ _ _⟩

/-- A request has gone out on a channel, and one record stands for it. The call,
the price and the record go by the same parameters. -/
structure SentOut (channel : Channel) (p : Params) (w w' : World σ) (receipt : Receipt)
    (task : Task) : Prop where
  sent : ∃ payload headers, channel.vendor.payload p = .ok payload ∧
    channel.headers = .ok headers ∧
    w'.events = w.events ++ [.called (.post channel.submitUrl headers payload)]
  added : w.tasks.Adds task w'.tasks
  key : task.key = (channel.id, receipt.taskId)
  status : task.status = .queued
  progress : task.progress = 0
  params : task.params = p
  action : task.action = p.imageMode.action
  billingRatio : task.billingRatio = w.rules.ratio p.model p.billing
  receipt_billingRatio : receipt.billingRatio = w.rules.ratio p.model p.billing

/-- A submission that succeeds has made one call and recorded one task, by the
parameters that the request was reconciled to. One that fails has recorded
nothing, and one that is refused as invalid has not even made a call. -/
theorem submit_all_or_nothing (g : Gateway) (env : Surroundings σ) (w : World σ) (r : Request)
    (cancelled : Bool) (now : Instant) {result : Except GatewayError Receipt} {w' : World σ}
    (h : (g.submit r cancelled now).run.run env w = (result, w')) :
    (∀ receipt, result = .ok receipt → ∃ channel model task,
      g.registry.resolve r.model = .ok (channel, model) ∧
      SentOut channel (channel.vendor.normalize { r with model := model }) w w' receipt task) ∧
    (∀ e, result = .error e → w'.tasks = w.tasks) ∧
    (∀ e, g.order r = .error e →
      result = .error (.task e) ∧ e.kind = .validation ∧ w' = w) ∧
    (∀ e, result = .error (.task e) → e.kind = .validation → w' = w) := by
  rcases g.submit_cases env w r cancelled now with ⟨e, horder, hrun⟩ | ⟨o, horder, hplaced⟩
  · obtain ⟨rfl, rfl⟩ := Prod.mk.inj (h.symm.trans hrun)
    refine ⟨nofun, fun _ _ => rfl, ?_, fun _ _ _ => rfl⟩
    intro e' he'
    obtain rfl : e = e' := Except.error.inj (horder.symm.trans he')
    exact ⟨rfl, (order_error horder).kind, rfl⟩
  · have hsettled : ∀ e, g.order r ≠ .error e := fun e he => nomatch horder.symm.trans he
    rw [h] at hplaced
    cases hplaced with
    | refused hkind htasks =>
      refine ⟨nofun, fun _ _ => htasks, fun e he => absurd he (hsettled e), ?_⟩
      rintro _ ⟨⟩ hvalidation
      exact absurd hvalidation hkind
    | taken htasks =>
      exact ⟨nofun, fun _ _ => htasks, fun e he => absurd he (hsettled e), nofun⟩
    | recorded hevents hadds =>
      refine ⟨?_, nofun, fun e he => absurd he (hsettled e), nofun⟩
      rintro _ ⟨⟩
      obtain ⟨channel, model, action, params, payload, headers, hroute, hprep, hpay, hheaders,
        rfl⟩ := order_eq_ok_iff.mp horder
      obtain ⟨rfl, rfl, -⟩ := Vendor.prepare_eq_ok hprep
      exact ⟨channel, model, _, hroute, ⟨_, _, hpay, hheaders, hevents⟩, hadds, rfl, rfl, rfl, rfl,
        rfl, rfl, rfl⟩

/-- A gateway with one channel, and with neither keys nor a bucket. -/
def sample : Gateway :=
  ⟨[], [.new 7 .doubao "http://doubao.test" "key"], none, ⟨0, 0⟩⟩

/-- Surroundings in which every call is answered with one finished video. -/
def sampleSurroundings : Surroundings Unit where
  reply _ _ := (.ok ⟨.ok, [], Text.Utf8.encode sampleAnswer, true⟩, ())
  refuses _ _ := (false, ())
where
  sampleAnswer := "\x7b\"id\":\"t1\",\"status\":\"succeeded\"," ++
    "\"content\":\x7b\"video_url\":\"http://doubao.test/koi.mp4\"\x7d\x7d"

def sampleRun : Except GatewayError Receipt × World Unit :=
  (sample.submit Request.sample false ⟨0⟩).run.run sampleSurroundings (.fresh .starter ())

theorem submit_sample_recorded : ∃ receipt channel params task,
    sampleRun.1 = .ok receipt ∧ receipt.billingRatio = .ofQuotient false 8 10 ∧
      SentOut channel params (.fresh .starter ()) sampleRun.2 receipt task := by
  have hprice : sampleRun.1.toOption.map (·.billingRatio) = some (.ofQuotient false 8 10) := by
    decide +kernel
  have hspec := submit_all_or_nothing sample _ _ Request.sample false ⟨0⟩
    (show _ = (sampleRun.1, sampleRun.2) from rfl)
  cases hrun : sampleRun.1 with
  | error e => rw [hrun] at hprice; cases hprice
  | ok receipt =>
    rw [hrun] at hprice
    obtain ⟨channel, model, task, -, hsent⟩ := hspec.1 receipt hrun
    exact ⟨receipt, channel, _, task, rfl, Option.some.inj hprice, hsent⟩

end Gateway

end VideoGateway

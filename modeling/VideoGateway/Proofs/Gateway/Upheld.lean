import VideoGateway.Proofs.Gateway.Requests
import VideoGateway.Proofs.Gateway.Session
import VideoGateway.Proofs.Gateway.Tending
import VideoGateway.Proofs.Gateway.Written

/-!
# What holds of all records and calls of a session

What is written and what is called depends on the records that were read before. A
property of records and one of calls are upheld by a program when, as long as the
records that it reads have the one, it writes such records only, and calls that have
the other. Sessions whose programs do so uphold both in every order of their effects.
-/
namespace VideoGateway

open Attempt (Ensures)

variable {σ α β ε : Type} {env : Surroundings σ} {w : World σ}
variable {I : Task → Prop} {P : Http.Call → Prop}

namespace Effect

/-- The records that the effect writes have a property, and what it calls another. -/
def Upholds (I : Task → Prop) (P : Http.Call → Prop) : Effect → Prop
  | .call c => P c
  | .insertTask t | .updateTask t => I t
  | _ => True

/-- The records that an answer brings have a property. -/
def Brings (I : Task → Prop) : (e : Effect) → e.Answer → Prop
  | .getTask _ _, found | .findTask _, found => ∀ t, found = some t → I t
  | .unfinishedTasks, ts => ∀ t ∈ ts, I t
  | _, _ => True

variable {e : Effect}

theorem Upholds.writes (h : e.Upholds I P) : e.Writes I := by
  cases e with
  | insertTask t | updateTask t => exact h
  | _ => trivial

theorem Upholds.called (h : e.Upholds I P) {c : Http.Call} (hc : .called c ∈ e.events) : P c := by
  cases e with
  | call c' =>
    obtain rfl : c = c' := Event.called.inj (List.mem_singleton.mp hc)
    exact h
  | wait ms => exact nomatch List.mem_singleton.mp hc
  | _ => cases hc

/-- Where all records have the property, so have those that an effect brings. -/
theorem brings_perform (env : Surroundings σ) (hw : w.tasks.All I) (e : Effect) :
    e.Brings I (e.perform env w).1 := by
  cases e with
  | getTask channelId taskId => exact fun t ht => hw _ _ t ht
  | findTask taskId =>
    intro t ht
    obtain ⟨c, hc⟩ := TaskStore.find?_eq_some_iff.mp ht
    exact hw _ _ t hc
  | unfinishedTasks => exact fun t ht => hw _ _ t (TaskStore.mem_unfinished.mp ht).1
  | _ => trivial

end Effect

namespace Program

/-- As long as the records that are read have the property `I`, those that are written
have it, and the calls have the property `P`. -/
inductive Upholds (I : Task → Prop) (P : Http.Call → Prop) : Program α → Prop
  | done (a : α) : Upholds I P (.done a)
  | perform {e : Effect} {next : e.Answer → Program α} :
      e.Upholds I P → (∀ answer, e.Brings I answer → Upholds I P (next answer)) →
      Upholds I P (.perform e next)

theorem Upholds.bind {p : Program α} {f : α → Program β} (hp : p.Upholds I P)
    (hf : ∀ a, (f a).Upholds I P) : (p >>= f).Upholds I P := by
  induction hp with
  | done a => exact hf a
  | perform he _ ih => exact .perform he ih

theorem Upholds.map {p : Program α} (f : α → β) (hp : p.Upholds I P) :
    (f <$> p).Upholds I P := by
  rw [← bind_pure_comp]
  exact hp.bind fun a => .done _

/-- What a program does whatever it reads, it does with records that have the property. -/
theorem Ensures.upholds {p : Program α} {Q : α → Prop} (h : p.Ensures (Effect.Upholds I P) Q) :
    p.Upholds I P := by
  induction h with
  | done _ => exact .done _
  | perform he _ ih => exact .perform he fun answer _ => ih answer

end Program

namespace Gateway

variable {g : Gateway}

/-- Records that the gateway makes from records with the property `I` have it, and its
calls for such records have the property `P`. -/
structure Maintains (g : Gateway) (I : Task → Prop) (P : Http.Call → Prop) : Prop where
  accepts : ∀ t, g.Accepts t → I t
  advanced : ∀ t told now, I t → g.Tells t told → I (t.advanced told.1 told.2 now)
  timedOut : ∀ t now, I t → I (t.timedOut now)
  withStored : ∀ t key url, g.storage.isSome = true → I t → I (t.withStored key url)
  submitCall : ∀ c ∈ g.registry, ∀ payload call, c.submitCall payload = .ok call → P call
  statusCall : ∀ t c call, g.channelOf t = .ok c → c.statusCall t.id = .ok call → P call
  fileCall : ∀ t c fileId call, g.channelOf t = .ok c → c.fileCall fileId = .ok call → P call
  plainCall : ∀ url, P (.get url [])
  contentCall : ∀ t c call, I t → g.registry.byId? t.channelId = some c →
    c.contentCall? t = some call → P call

namespace Maintains

variable (h : g.Maintains I P)
include h

theorem submit_ensures (r : Request) (cancelled : Bool) (now : Instant) :
    Ensures (Effect.Upholds I P) (fun _ => True) (g.submit r cancelled now) :=
  g.submit_ensures r cancelled now trivial h.submitCall h.accepts

theorem follow_ensures {t : Task} (ht : I t) (cancelled : Bool) (now : Instant) :
    Ensures (Effect.Upholds I P) (fun _ => True) (g.follow t cancelled now) :=
  g.follow_ensures t cancelled now (h.statusCall t) (h.fileCall t) h.plainCall (fun _ => trivial)
    (fun _ => trivial) (fun told => h.advanced t told now ht)
    fun told key url hstorage htold =>
      h.withStored _ key url hstorage (h.advanced t told now ht htold)

theorem poll_upholds (channelId : Nat) (taskId : String) (cancelled : Bool) (now : Instant) :
    (g.poll channelId taskId cancelled now).run.Upholds I P := by
  unfold poll
  rw [Attempt.run_effect_bind]
  refine .perform trivial fun found hfound => ?_
  cases found with
  | none => exact .done _
  | some t =>
    dsimp only
    split
    · exact .done _
    · exact (h.follow_ensures (hfound t rfl) cancelled now).upholds

theorem pollAll_upholds (cancelled : Bool) (now : Instant) (ts : List Task) :
    (g.pollAll cancelled now ts).Upholds I P := by
  induction ts with
  | nil => exact .done _
  | cons t ts ih => exact (h.poll_upholds t.channelId t.id cancelled now).bind fun _ => ih

theorem expire_upholds (asOf : Instant) (timeout : Int) (now : Instant) :
    (Gateway.expire asOf timeout now).run.Upholds I P := by
  unfold expire
  rw [Attempt.run_effect_bind]
  refine .perform trivial fun ts hts => ?_
  exact Program.Ensures.upholds
    (expireAll_ensures asOf timeout now ts fun t ht => h.timedOut t now (hts t ht))

theorem pollPass_upholds (timeout : Int) (cancelled : Bool) (now : Instant) :
    (g.pollPass timeout cancelled now).Upholds I P := by
  refine (h.expire_upholds now timeout now).bind fun _ => ?_
  exact .perform trivial fun ts _ => h.pollAll_upholds cancelled now ts

theorem served_ensures {t : Task} (ht : I t) :
    Ensures (Effect.Upholds I P) (fun _ => True) (g.served t) := by
  refine g.served_ensures t (fun c link call hc hplace => ?_) (fun _ => trivial) fun _ => trivial
  rcases contentPlace_eq_fetch_iff.mp hplace with ⟨_, -, -, rfl⟩ | ⟨-, hcall⟩
  · exact h.plainCall _
  · exact h.contentCall t c call ht hc hcall

theorem content_upholds (taskId : String) : (g.content taskId).run.Upholds I P := by
  rw [content_eq]
  split
  · exact .done _
  · rw [Attempt.run_effect_bind]
    refine .perform trivial fun found hfound => ?_
    cases found with
    | none => exact .done _
    | some t => exact (h.served_ensures (hfound t rfl)).upholds

theorem answerGet_upholds (r : Http.Request) (route place : Route) :
    (answer.answerGet g route r place).Upholds I P := by
  cases place with
  | root | health | submissions => exact .done _
  | models => exact (respond_ensures (g.handleModels_ensures r)).upholds
  | priceRules => exact (respond_ensures (g.handleGetRules_ensures r trivial)).upholds
  | task id =>
    cases id with
    | none => exact .done _
    | some id =>
      exact (respond_ensures (g.handleTask_ensures r id trivial fun _ => trivial)).upholds
  | content id =>
    cases id with
    | none => exact .done _
    | some id =>
      refine (h.content_upholds id).bind fun result => ?_
      cases result <;> exact .done _

theorem answer_upholds (route : Route) (r : Http.Request) (cancelled : Bool) (now : Instant) :
    (g.answer route r cancelled now).Upholds I P := by
  unfold answer
  split
  · exact (respond_ensures (g.handleSubmit_ensures r cancelled now fun request =>
      h.submit_ensures request cancelled now)).upholds
  · exact (respond_ensures (g.handlePutRules_ensures r (fun _ => trivial) trivial)).upholds
  · exact .done _
  · exact h.answerGet_upholds r _ _
  · exact (h.answerGet_upholds r _ _).map _
  · exact .done _

theorem handle_upholds (r : Http.Request) (cancelled : Bool) (now : Instant) :
    (g.handle r cancelled now).Upholds I P := by
  refine Program.Upholds.map _ ?_
  split
  · exact .done _
  · exact h.answer_upholds _ r cancelled now
  · exact .done _

theorem job_upholds (job : Job) : (job.program g).Upholds I P := by
  cases job with
  | request r cancelled now => exact (h.handle_upholds r cancelled now).map _
  | submit r cancelled now => exact (h.submit_ensures r cancelled now).upholds.map _
  | poll c id cancelled now => exact (h.poll_upholds c id cancelled now).map _
  | pass timeout cancelled now => exact (h.pollPass_upholds timeout cancelled now).map _
  | expire asOf timeout now => exact (h.expire_upholds asOf timeout now).map _
  | document taskId =>
    exact (Program.Ensures.upholds (g.document_ensures taskId trivial fun _ => trivial)).map _
  | content taskId => exact (h.content_upholds taskId).map _
  | setRules rules => exact .perform trivial fun _ _ => .done _

end Maintains

end Gateway

namespace Session

variable {g : Gateway} {s : Session σ} {start : List Event}

/-- All records have the property `I`, the calls since the start have the property `P`,
and what was begun upholds both. -/
structure Upholds (I : Task → Prop) (P : Http.Call → Prop) (start : List Event)
    (s : Session σ) : Prop where
  programs : ∀ p ∈ s.programs, p.Upholds I P
  tasks : s.world.tasks.All I
  calls : ∃ es, s.world.events = start ++ es ∧ ∀ c, .called c ∈ es → P c

theorem opened_upholds (w : World σ) (hw : w.tasks.All I) :
    (opened w).Upholds I P w.events where
  programs := nofun
  tasks := hw
  calls := ⟨[], (List.append_nil _).symm, nofun⟩

theorem Upholds.turn (hg : g.Maintains I P) (h : s.Upholds I P start) (step : Turn) :
    (s.turn g env step).Upholds I P start := by
  cases step with
  | start job =>
    refine ⟨fun p hp => ?_, h.tasks, h.calls⟩
    rcases List.mem_append.mp hp with hp | hp
    · exact h.programs p hp
    · obtain rfl := List.mem_singleton.mp hp
      exact hg.job_upholds job
  | act i =>
    unfold Session.turn
    dsimp only
    split
    · next e next hget =>
      cases h.programs _ (List.mem_of_getElem? hget) with
      | perform he hnext =>
        obtain ⟨es, hes, hcalls⟩ := h.calls
        refine ⟨fun p hp => ?_, he.writes.perform h.tasks, es ++ e.events, ?_, fun c hc => ?_⟩
        · rcases List.mem_or_eq_of_mem_set hp with hp | rfl
          · exact h.programs p hp
          · exact hnext _ (Effect.brings_perform env h.tasks e)
        · show (e.perform env s.world).2.events = start ++ (es ++ e.events)
          rw [Effect.perform_events, hes, List.append_assoc]
        · rcases List.mem_append.mp hc with hc | hc
          · exact hcalls c hc
          · exact he.called hc
    · exact h

/-- What the gateway maintains is upheld along every history. -/
theorem Upholds.after (hg : g.Maintains I P) (h : s.Upholds I P start) (env : Surroundings σ)
    (history : List Turn) : (s.after g env history).Upholds I P start := by
  induction history generalizing s with
  | nil => exact h
  | cons step history ih => exact ih (h.turn hg step)

end Session

end VideoGateway

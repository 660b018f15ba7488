import VideoGateway.Gateway.Routes
import VideoGateway.Proofs.Gateway.Reach

/-!
# What requests do to the store

Of all the requests that the gateway answers, only a submission reaches for the
store to write to it, and the world after such a request is the world after the
submission.
-/
namespace VideoGateway

open Attempt (Ensures)

variable {σ : Type} (env : Surroundings σ) (w : World σ)

namespace Gateway

variable (g : Gateway) (r : Http.Request)

theorem respond_run_snd (a : Attempt GatewayError Json) :
    ((respond a).run env w).2 = (a.run.run env w).2 := by
  unfold respond
  rw [Program.run_bind]
  cases (a.run.run env w).1 <;> rfl

theorem respond_ensures {a : Attempt GatewayError Json} {P : Effect → Prop} {Q : Json → Prop}
    (h : Ensures P Q a) : (respond a).Ensures P fun _ => True := by
  refine Program.Ensures.bind h fun result _ => ?_
  cases result <;> exact .done trivial

/-- Taking a request for a video is a submission, unless the request does not get
that far. -/
theorem handleSubmit_run_snd (cancelled : Bool) (now : Instant) :
    ((g.handleSubmit r cancelled now).run.run env w).2 = w ∨
      ∃ request, ((g.handleSubmit r cancelled now).run.run env w).2 =
        ((g.submit request cancelled now).run.run env w).2 := by
  unfold handleSubmit
  rw [Attempt.run_ofExcept_bind]
  cases Access.authorize g.keys r.headers with
  | error e => exact .inl rfl
  | ok _ =>
    dsimp only
    rw [Attempt.run_ofExcept_bind]
    cases Body.read Request.read r with
    | error fault => exact .inl rfl
    | ok request =>
      refine .inr ⟨request, ?_⟩
      dsimp only
      rw [ExceptT.run_bind, Program.run_bind]
      cases ((g.submit request cancelled now).run.run env w).1 <;> rfl

variable {P : Effect → Prop}

theorem handleSubmit_ensures (cancelled : Bool) (now : Instant)
    (hsubmit : ∀ request, Ensures P (fun _ => True) (g.submit request cancelled now)) :
    Ensures P (fun _ => True) (g.handleSubmit r cancelled now) := by
  unfold handleSubmit
  refine .ofExcept_bind fun _ => ?_
  refine .ofExcept_bind fun request => ?_
  exact (hsubmit request).bind fun _ _ => .pure trivial

theorem handleTask_ensures (taskId : String) (hfind : P (.findTask taskId))
    (hbucket : ∀ op, P (.bucket op)) : Ensures P (fun _ => True) (g.handleTask r taskId) := by
  unfold handleTask
  refine .ofExcept_bind fun _ => ?_
  refine (g.document_ensures taskId hfind hbucket).bind fun _ _ => ?_
  exact .pure trivial

theorem handleModels_ensures : Ensures P (fun _ => True) (g.handleModels r) := by
  unfold handleModels
  refine .ofExcept_bind fun _ => ?_
  exact .pure trivial

theorem handleGetRules_ensures (hrules : P .priceRules) :
    Ensures P (fun _ => True) (g.handleGetRules r) := by
  unfold handleGetRules
  refine .ofExcept_bind fun _ => ?_
  refine (Ensures.effect hrules).bind fun _ _ => ?_
  exact .pure trivial

theorem handlePutRules_ensures (hset : ∀ rules, P (.setPriceRules rules))
    (hrules : P .priceRules) : Ensures P (fun _ => True) (g.handlePutRules r) := by
  unfold handlePutRules
  refine .ofExcept_bind fun _ => ?_
  refine .ofExcept_bind fun rules => ?_
  split
  · exact .throw _
  · refine (Ensures.effect (hset rules)).bind fun _ _ => ?_
    refine (Ensures.effect hrules).bind fun _ _ => ?_
    exact .pure trivial

theorem answerGet_keepsTasks (route place : Route) :
    (answer.answerGet g route r place).Ensures Effect.KeepsTasks fun _ => True := by
  cases place with
  | root | health | submissions => exact .done trivial
  | models => exact respond_ensures (g.handleModels_ensures r)
  | priceRules => exact respond_ensures (g.handleGetRules_ensures r trivial)
  | task id =>
    cases id with
    | none => exact .done trivial
    | some id => exact respond_ensures (g.handleTask_ensures r id trivial fun _ => trivial)
  | content id =>
    cases id with
    | none => exact .done trivial
    | some id =>
      refine Program.Ensures.bind (g.content_ensures id trivial (fun _ => trivial)
        (fun _ => trivial) fun _ => trivial) fun result _ => ?_
      cases result <;> exact .done trivial

theorem answer_run_snd (route : Route) (cancelled : Bool) (now : Instant) :
    ((g.answer route r cancelled now).run env w).2.tasks = w.tasks ∨
      ∃ request, ((g.answer route r cancelled now).run env w).2 =
        ((g.submit request cancelled now).run.run env w).2 := by
  unfold answer
  split
  · rw [respond_run_snd]
    rcases handleSubmit_run_snd env w g r cancelled now with h | h
    · exact .inl (by rw [h])
    · exact .inr h
  · exact .inl ((respond_ensures (g.handlePutRules_ensures r (fun _ => trivial)
      trivial)).run_tasks env w)
  · exact .inl rfl
  · exact .inl ((g.answerGet_keepsTasks r _ _).run_tasks env w)
  · rw [Program.run_map]
    exact .inl ((g.answerGet_keepsTasks r _ _).run_tasks env w)
  · exact .inl rfl

/-- A request leaves the store alone, or the world after it is the world after a
submission. -/
theorem handle_run_snd (cancelled : Bool) (now : Instant) :
    ((g.handle r cancelled now).run env w).2.tasks = w.tasks ∨
      ∃ request, ((g.handle r cancelled now).run env w).2 =
        ((g.submit request cancelled now).run.run env w).2 := by
  unfold handle
  rw [Program.run_map]
  split
  · exact .inl rfl
  · exact answer_run_snd env w g r _ cancelled now
  · exact .inl rfl

end Gateway

end VideoGateway

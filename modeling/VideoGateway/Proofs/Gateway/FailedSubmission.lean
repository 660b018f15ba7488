import VideoGateway.Proofs.Gateway.Authorization

/-!
# What a failed submission is answered with

A request for a video is answered with the id of the task, or with a failure. The status
of a failure reports an error, except that the refusal of the vendor is passed on with
the vendor's own status, whatever that is.
-/
namespace VideoGateway

namespace TaskError

theorem vendor_status_of_success {code message : String} {status : Http.Status}
    (h : status.isSuccess = true) : (vendor code message status).status = .badGateway :=
  if_pos h

theorem vendor_status_of_refusal {code message : String} {status : Http.Status}
    (h : status.isSuccess = false) : (vendor code message status).status = status :=
  if_neg (Bool.eq_false_iff.mp h)

end TaskError

theorem Vendor.accepted_of_refusal (v : Vendor) {status : Http.Status} (body : Bytes)
    (h : status.isSuccess = false) : ∃ e, v.accepted status body = .error e ∧ e.status = status := by
  unfold accepted
  dsimp only
  rw [if_neg (Bool.eq_false_iff.mp h)]
  exact ⟨_, rfl, TaskError.vendor_status_of_refusal h⟩

namespace Gateway

variable {σ : Type} {g : Gateway} {r : Http.Request} {cancelled : Bool} {now : Instant}
  {env : Surroundings σ} {w : World σ}

/-- The vendor is asked, and gives a whole answer that is no success. -/
structure Order.IsRefusedBy (o : Order) (env : Surroundings σ) (w : World σ) (cancelled : Bool)
    (answer : Http.Response) : Prop where
  asked : cancelled = false
  answered : (env.reply o.call w.outside).1 = .ok answer
  complete : answer.complete = true
  refused : answer.status.isSuccess = false

theorem Order.IsRefusedBy.status {o : Order} {answer : Http.Response}
    (h : o.IsRefusedBy env w cancelled answer) (ratio : Binary64) (now : Instant) :
    ∃ e, ((o.place ratio cancelled now).run.run env w).1 = .error e ∧ e.status = answer.status := by
  obtain ⟨rfl, hanswer, hcomplete, hrefused⟩ := h
  obtain ⟨e, he, hstatus⟩ := o.channel.vendor.accepted_of_refusal answer.body hrefused
  have haccepted : acceptedTask o.channel.vendor (.ok answer) = .error e := by
    unfold acceptedTask
    dsimp only
    rw [if_pos hcomplete, he]
  refine ⟨.task e, ?_, hstatus⟩
  rw [Order.place_run, if_neg Bool.false_ne_true, hanswer, haccepted]

theorem Order.place_isError {o : Order} {ratio : Binary64} {e : GatewayError}
    (hnone : ∀ answer, ¬ o.IsRefusedBy env w cancelled answer)
    (h : ((o.place ratio cancelled now).run.run env w).1 = .error e) :
    e.status.isError = true := by
  rw [Order.place_run] at h
  cases cancelled with
  | true =>
    cases h
    rfl
  | false =>
    rw [if_neg Bool.false_ne_true] at h
    cases haccepted : acceptedTask o.channel.vendor (env.reply o.call w.outside).1 with
    | error failure =>
      rw [haccepted] at h
      cases h
      obtain ⟨code, message, rfl⟩ | ⟨answer, hanswer, hcomplete, hfails⟩ :=
        acceptedTask_error haccepted
      · rfl
      · have hsuccess : answer.status.isSuccess = true :=
          eq_true_of_ne_false fun hrefused => hnone answer ⟨rfl, hanswer, hcomplete, hrefused⟩
        obtain ⟨code, message, rfl⟩ | ⟨-, code, message, rfl⟩ := Vendor.accepted_error hfails
        · exact congrArg Http.Status.isError (TaskError.vendor_status_of_success hsuccess)
        · rfl
    | ok accepted =>
      rw [haccepted] at h
      dsimp only at h
      split at h <;> cases h
      rfl

/-- How the status of a failed order comes about. -/
theorem Order.place_error_status {o : Order} {ratio : Binary64} {e : GatewayError}
    (h : ((o.place ratio cancelled now).run.run env w).1 = .error e) :
    (∃ answer, o.IsRefusedBy env w cancelled answer ∧ e.status = answer.status) ∨
      (∀ answer, ¬ o.IsRefusedBy env w cancelled answer) ∧ e.status.isError = true := by
  by_cases hrefused : ∃ answer, o.IsRefusedBy env w cancelled answer
  · obtain ⟨answer, hanswer⟩ := hrefused
    obtain ⟨e', he', hstatus⟩ := hanswer.status ratio now
    obtain rfl : e = e' := Except.error.inj (h.symm.trans he')
    exact .inl ⟨answer, hanswer, hstatus⟩
  · rw [not_exists] at hrefused
    exact .inr ⟨hrefused, place_isError hrefused h⟩

def created (taskId : String) : Http.Response :=
  forEveryOrigin (.ofJson .ok (.object [("task_id", .str taskId)]))

/-- A request for a video gets as far as the vendor, who refuses it. -/
def IsRefusedBy (g : Gateway) (env : Surroundings σ) (w : World σ) (r : Http.Request)
    (cancelled : Bool) (answer : Http.Response) : Prop :=
  Access.authorize g.keys r.headers = .ok () ∧ ∃ request o,
    Body.read Request.read r = .ok request ∧ g.order request = .ok o ∧
      o.IsRefusedBy env w cancelled answer

/-- Whether a request is refused by the vendor depends on its order only. -/
theorem isRefusedBy_iff {request : Request} {o : Order} {answer : Http.Response}
    (hallowed : Access.authorize g.keys r.headers = .ok ())
    (hread : Body.read Request.read r = .ok request) (horder : g.order request = .ok o) :
    g.IsRefusedBy env w r cancelled answer ↔ o.IsRefusedBy env w cancelled answer := by
  constructor
  · rintro ⟨-, request', o', hread', horder', hrefused⟩
    obtain rfl : request = request' := Except.ok.inj (hread.symm.trans hread')
    obtain rfl : o = o' := Except.ok.inj (horder.symm.trans horder')
    exact hrefused
  · exact fun hrefused => ⟨hallowed, request, o, hread, horder, hrefused⟩

theorem handle_submission_run (hmethod : r.method = .post)
    (hroute : Route.ofTarget? r.target = some .submissions) :
    ((g.handle r cancelled now).run env w).1 =
      match Access.authorize g.keys r.headers with
      | .error e => forEveryOrigin e.response
      | .ok _ =>
        match Body.read Request.read r with
        | .error _ =>
          forEveryOrigin (GatewayError.badRequest "Invalid JSON request body").response
        | .ok request =>
          match ((g.submit request cancelled now).run.run env w).1 with
          | .error e => forEveryOrigin e.response
          | .ok receipt => created receipt.taskId := by
  rw [handle_of_route hroute (by rw [hmethod]; nofun), Program.run_map]
  unfold answer
  rw [hmethod]
  dsimp only
  unfold respond
  rw [Program.run_bind]
  unfold handleSubmit
  rw [Attempt.run_ofExcept_bind]
  cases Access.authorize g.keys r.headers with
  | error e => rfl
  | ok _ =>
    dsimp only
    rw [Attempt.run_ofExcept_bind]
    cases Body.read Request.read r with
    | error fault => rfl
    | ok request =>
      dsimp only
      rw [ExceptT.run_bind, Program.run_bind]
      cases ((g.submit request cancelled now).run.run env w).1 <;> rfl

/-- A request for a video is answered with the id of the task or with a failure. The
status of the failure is that of the vendor's answer if the vendor refuses the request,
and otherwise one that reports an error. -/
theorem submission_status (hmethod : r.method = .post)
    (hroute : Route.ofTarget? r.target = some .submissions) (g : Gateway) (cancelled : Bool)
    (now : Instant) (env : Surroundings σ) (w : World σ) :
    (∃ taskId, ((g.handle r cancelled now).run env w).1 = created taskId) ∨
    ∃ e : GatewayError, ((g.handle r cancelled now).run env w).1 = forEveryOrigin e.response ∧
      ((∃ answer, g.IsRefusedBy env w r cancelled answer ∧ e.status = answer.status) ∨
        (∀ answer, ¬ g.IsRefusedBy env w r cancelled answer) ∧ e.status.isError = true) := by
  rw [handle_submission_run hmethod hroute]
  cases hallowed : Access.authorize g.keys r.headers with
  | error e =>
    obtain ⟨message, rfl⟩ := Access.authorize_error hallowed
    refine .inr ⟨_, rfl, .inr ⟨?_, rfl⟩⟩
    exact fun _ hrefused => nomatch hallowed.symm.trans hrefused.1
  | ok _ =>
    dsimp only
    cases hread : Body.read Request.read r with
    | error fault =>
      refine .inr ⟨_, rfl, .inr ⟨?_, rfl⟩⟩
      rintro _ ⟨-, request, o, hread', -⟩
      exact nomatch hread.symm.trans hread'
    | ok request =>
      dsimp only
      rw [submit_run]
      cases horder : g.order request with
      | error e =>
        refine .inr ⟨.task e, rfl, .inr ⟨?_, ?_⟩⟩
        · rintro _ ⟨-, request', o, hread', horder', -⟩
          obtain rfl : request = request' := Except.ok.inj (hread.symm.trans hread')
          exact nomatch horder.symm.trans horder'
        · exact congrArg Http.Status.isError (order_error horder).status
      | ok o =>
        simp only [isRefusedBy_iff hallowed hread horder]
        cases hplaced : ((o.place (w.rules.ratio o.params.model o.params.billing) cancelled
          now).run.run env w).1 with
        | ok receipt => exact .inl ⟨receipt.taskId, rfl⟩
        | error e => exact .inr ⟨e, rfl, Order.place_error_status hplaced⟩

def koiSubmission : Http.Request :=
  ⟨.post, "/v1/video/generations", [("content-type", Http.HeaderValue.applicationJson)],
    Text.Utf8.encode "\x7b\"model\":\"doubao-seedance-1-0-pro\",\"prompt\":\"koi\"\x7d"⟩

def unmodifiedSurroundings : Surroundings Unit where
  reply _ _ := (.ok (.empty ⟨304⟩), ())
  refuses _ _ := (false, ())

def unmodifiedAnswer : Http.Response :=
  ((sample.handle koiSubmission false ⟨0⟩).run unmodifiedSurroundings (.fresh .starter ())).1

theorem unmodifiedAnswer_status : unmodifiedAnswer.status = ⟨304⟩ := by
  decide +kernel

theorem koiSubmission_route : Route.ofTarget? koiSubmission.target = some .submissions := by
  decide +kernel

theorem unmodifiedAnswer_ne_created (taskId : String) : unmodifiedAnswer ≠ created taskId :=
  fun h => nomatch unmodifiedAnswer_status.symm.trans (congrArg Http.Response.status h)

/-- The 304 is that of the vendor, who refuses the request. -/
theorem submission_status_unmodified :
    koiSubmission.method = .post ∧ Route.ofTarget? koiSubmission.target = some .submissions ∧
      ∃ answer, sample.IsRefusedBy unmodifiedSurroundings (.fresh .starter ()) koiSubmission false
        answer ∧ unmodifiedAnswer.status = answer.status := by
  refine ⟨rfl, koiSubmission_route, ?_⟩
  have hstatus := unmodifiedAnswer_status
  obtain ⟨taskId, hcreated⟩ | ⟨e, hresponse, ⟨answer, hrefused, he⟩ | ⟨-, hisError⟩⟩ :=
    submission_status (r := koiSubmission) rfl koiSubmission_route sample false ⟨0⟩
      unmodifiedSurroundings (.fresh .starter ())
  · exact absurd hcreated (unmodifiedAnswer_ne_created taskId)
  · exact ⟨answer, hrefused, (congrArg Http.Response.status hresponse).trans he⟩
  · have he : e.status = ⟨304⟩ := (congrArg Http.Response.status hresponse).symm.trans hstatus
    rw [he] at hisError
    cases hisError

/-- A submission that tells no id of a task is answered with a status that reports no
error. -/
theorem unmodified_not_isError :
    koiSubmission.method = .post ∧ Route.ofTarget? koiSubmission.target = some .submissions ∧
      (∀ taskId, unmodifiedAnswer ≠ created taskId) ∧
      ¬ (400 ≤ unmodifiedAnswer.status.code ∧ unmodifiedAnswer.status.code ≤ 599) := by
  refine ⟨rfl, koiSubmission_route, unmodifiedAnswer_ne_created, ?_⟩
  rw [unmodifiedAnswer_status]
  decide

end Gateway

end VideoGateway

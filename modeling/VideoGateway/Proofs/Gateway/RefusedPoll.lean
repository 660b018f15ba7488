import VideoGateway.Proofs.Gateway.Polling
import VideoGateway.Proofs.Gateway.Submission
import VideoGateway.Proofs.Vendor.VideoAddress

/-!
# Polls that the vendor refuses

A vendor that is overloaded or broken is asked again later, whatever it says in
the body. Any other refusal is read as an answer is: its HTTP status is not
looked at, so it ends the task when the body tells a failure, and moves the task
on only when the body by itself is a report without an error.
-/
namespace VideoGateway

variable {σ : Type} {env : Surroundings σ} {w : World σ} {c : Channel} {body : Bytes}

namespace Attempt

variable {α β ε ε' : Type} {w' : World σ}

theorem run_bind_of_error {a : Attempt ε α} {f : α → Attempt ε β} {e : ε}
    (h : a.run.run env w = (.error e, w')) : (a >>= f).run.run env w = (.error e, w') := by
  rw [ExceptT.run_bind, Program.run_bind, h]
  rfl

theorem run_mapError (f : ε → ε') (a : Attempt ε α) :
    (a.mapError f).run.run env w = ((a.run.run env w).1.mapError f, (a.run.run env w).2) :=
  Program.run_map _ _ env w

end Attempt

namespace Http.Response

/-- The vendor is to be asked again later: it is overloaded or broken, or its
answer broke off. -/
def Unusable (r : Response) : Prop :=
  r.complete = false ∨ r.status = .tooManyRequests ∨ r.status.isServerError = true

/-- The same answer with a status that stands for success. -/
def accepted (r : Response) : Response :=
  { r with status := .ok }

end Http.Response

namespace Channel

theorem bodyOf_of_unusable {r : Http.Response} (h : r.Unusable) :
    ∃ e, bodyOf (.ok r) = .error e ∧ e.kind = .transport := by
  unfold bodyOf
  cases hcomplete : r.complete with
  | false => exact ⟨.interruptedBody, by simp [hcomplete], rfl⟩
  | true =>
    have hstatus : (r.status = .tooManyRequests || r.status.isServerError) = true := by
      rcases h with h | h | h
      · simp [hcomplete] at h
      · simp [h]
      · simp [h]
    exact ⟨.statusQueryRefused r.status, by simp [hstatus, hcomplete], rfl⟩

theorem bodyOf_of_usable {r : Http.Response} (h : ¬ r.Unusable) : bodyOf (.ok r) = .ok r.body := by
  simp only [Http.Response.Unusable, not_or, Bool.not_eq_false, Bool.not_eq_true] at h
  simp [bodyOf, h]

theorem bodyOf_accepted {r : Http.Response} (h : ¬ r.Unusable) :
    bodyOf (.ok r.accepted) = .ok r.body := by
  refine bodyOf_of_usable (r := r.accepted) fun hunusable => h ?_
  rcases hunusable with hbroken | hbusy | hfailed
  · exact .inl hbroken
  · exact absurd hbusy (show Http.Status.ok ≠ .tooManyRequests by decide)
  · exact absurd hfailed (show ¬ Http.Status.isServerError .ok = true by decide)

end Channel

namespace Hailuo

theorem fileToFind?_of_unreadable (hc : c.vendor = .hailuo) {e : TaskError}
    (h : c.readPoll body = .error e) : fileToFind? body = none := by
  rw [Option.eq_none_iff_forall_ne_some]
  intro fileId hfile
  obtain ⟨report, hread, -⟩ := fileToFind?_eq_some_iff.mp hfile
  cases (readPoll_eq_ok hc hread).symm.trans h

theorem fileToFind?_of_failure (hc : c.vendor = .hailuo) {reason : String}
    (h : c.outcome body = .ok (.failure reason)) : fileToFind? body = none := by
  rw [Option.eq_none_iff_forall_ne_some]
  intro fileId hfile
  obtain ⟨report, hread, hstatus, -, hfine, -⟩ := fileToFind?_eq_some_iff.mp hfile
  rw [Channel.outcome, readPoll_eq_ok hc hread, ok_bind, StatusTable.interpret] at h
  have hstatus : c.vendor.statuses.lookup? report.poll.status = some .succeeded := by
    rw [hc]
    exact hstatus
  have hfine : report.poll.error = none := hfine
  simp only [hfine, hstatus] at h
  split at h <;> cases h

end Hailuo

namespace Gateway

def afterCall (w : World σ) (call : Http.Call) (outside : σ) : World σ :=
  { w with events := w.events ++ [.called call], outside := outside }

theorem ask_run {call : Http.Call} {reply : Http.Reply} {outside : σ}
    (hreply : env.reply call w.outside = (reply, outside)) :
    (ask false (.ok call)).run.run env w = (Channel.bodyOf reply, afterCall w call outside) := by
  have hmap : (Channel.bodyOf reply).mapError id = Channel.bodyOf reply := by
    cases Channel.bodyOf reply <;> rfl
  show ((Channel.bodyOf (env.reply call w.outside).1).mapError id,
    afterCall w call (env.reply call w.outside).2) = _
  rw [hreply, hmap]

theorem fetchStatus_of_no_file {taskId : String} {cancelled : Bool} {w' : World σ}
    (hask : (ask cancelled (c.statusCall taskId)).run.run env w = (.ok body, w'))
    (hfile : c.vendor = .hailuo → Hailuo.fileToFind? body = none) :
    (fetchStatus c taskId cancelled).run.run env w = (.ok body, w') := by
  unfold fetchStatus
  rw [Attempt.run_bind_of_ok hask]
  cases hc : c.vendor with
  | doubao | openAi => rfl
  | hailuo =>
    simp only [hfile hc]
    rfl

variable (g : Gateway) {t : Task} {w' : World σ} {e : TaskError} {cancelled : Bool} {now : Instant}

theorem report_of_error (hchannel : g.channelOf t = .ok c)
    (hfetch : (fetchStatus c t.id cancelled).run.run env w = (.error e, w')) :
    (g.report t cancelled).run.run env w = (.error (.task e), w') := by
  unfold report
  rw [hchannel, Attempt.run_ofExcept_bind]
  dsimp only
  refine Attempt.run_bind_of_error ?_
  rw [Attempt.run_mapError, hfetch]
  rfl

theorem report_of_answer (hchannel : g.channelOf t = .ok c)
    (hfetch : (fetchStatus c t.id cancelled).run.run env w = (.ok body, w')) :
    (g.report t cancelled).run.run env w =
      (((c.outcome body).map fun o => (o, rawValue body)).mapError .task, w') := by
  have hmapped : ((fetchStatus c t.id cancelled).mapError GatewayError.task).run.run env w =
      (.ok body, w') := by
    rw [Attempt.run_mapError, hfetch]
    rfl
  unfold report Attempt.ofTask
  rw [hchannel, Attempt.run_ofExcept_bind]
  dsimp only
  rw [Attempt.run_bind_of_ok hmapped, Attempt.run_ofExcept_bind]
  cases c.outcome body <;> rfl

theorem follow_of_error {e : GatewayError}
    (hreport : (g.report t cancelled).run.run env w = (.error e, w')) :
    (g.follow t cancelled now).run.run env w = (.error e, w') :=
  Attempt.run_bind_of_error hreport

/-- A report that does not move the task on is ignored. -/
theorem follow_of_stays {o : Outcome} {data : Json}
    (hreport : (g.report t cancelled).run.run env w = (.ok (o, data), w'))
    (hstays : t.advance? o data now = none) :
    (g.follow t cancelled now).run.run env w = (.ok t, w') := by
  unfold follow
  rw [Attempt.run_bind_of_ok hreport]
  dsimp only
  rw [hstays]
  rfl

/-- A report that moves the task on is kept, with a copy where it is a success. -/
theorem follow_of_advances {o : Outcome} {data : Json} {u : Task}
    (hreport : (g.report t cancelled).run.run env w = (.ok (o, data), w'))
    (hadvance : t.advance? o data now = some u) :
    (g.follow t cancelled now).run.run env w =
      (ExceptT.lift (if u.status = .success then g.withCopy u now else pure u) >>= keep).run.run
        env w' := by
  unfold follow
  rw [Attempt.run_bind_of_ok hreport]
  dsimp only
  rw [hadvance]

theorem follow_of_unsuccessful {o : Outcome} {data : Json} {u v : Task}
    (hreport : (g.report t cancelled).run.run env w = (.ok (o, data), w'))
    (hadvance : t.advance? o data now = some u) (hstatus : u.status ≠ .success)
    (hstored : w'.tasks.get? u.channelId u.id = some v) :
    (g.follow t cancelled now).run.run env w =
      (.ok u, { w' with tasks := w'.tasks.replace u }) := by
  rw [g.follow_of_advances hreport hadvance, if_neg hstatus]
  exact keep_run hstored

theorem follow_of_failure {reason : String} {data : Json}
    (hreport : (g.report t cancelled).run.run env w = (.ok (.failure reason, data), w'))
    (hopen : t.isFinal = false) {u : Task} (hstored : w'.tasks.get? t.channelId t.id = some u) :
    (g.follow t cancelled now).run.run env w =
      (.ok (t.advanced (.failure reason) data now),
        { w' with tasks := w'.tasks.replace (t.advanced (.failure reason) data now) }) := by
  have hadvance : t.advance? (.failure reason) data now =
      some (t.advanced (.failure reason) data now) := Task.advance?_of_isFinal hopen rfl data now
  exact g.follow_of_unsuccessful hreport hadvance (fun h => nomatch h) hstored

theorem poll_of_open {channelId : Nat} {id : String} (ht : w.tasks.get? channelId id = some t)
    (hopen : t.isFinal = false) :
    (g.poll channelId id cancelled now).run.run env w =
      (g.follow t cancelled now).run.run env w := by
  unfold poll
  rw [Attempt.run_effect_bind, Program.run_perform]
  simp only [Effect.perform, ht, hopen, Bool.false_eq_true, ↓reduceIte]

theorem lift_keep_isOk (env : Surroundings σ) {p : Program Task}
    (hp : p.Ensures Effect.KeepsTasks fun u => u.key = t.key) {v : Task}
    (hstored : w.tasks.get? t.channelId t.id = some v) :
    ∃ u w', (ExceptT.lift p >>= keep).run.run env w = (.ok u, w') := by
  have hkey := hp.result env w
  rw [← hp.run_tasks env w, ← TaskStore.get?_of_key_eq _ hkey] at hstored
  rw [Attempt.run_bind_of_ok (Attempt.run_lift p env w)]
  exact ⟨_, _, keep_run hstored⟩

theorem report_tasks (t : Task) (cancelled : Bool) (env : Surroundings σ) (w : World σ) :
    ((g.report t cancelled).run.run env w).2.tasks = w.tasks :=
  Program.Ensures.run_tasks (g.report_ensures t cancelled (fun _ _ _ _ => trivial)
    fun _ _ _ _ _ => trivial) env w

/-- Where the task is in the store, a failure to move it on leaves the store as it
is. -/
theorem follow_error_tasks {e : GatewayError} {v : Task}
    (hstored : w.tasks.get? t.channelId t.id = some v)
    (hrun : (g.follow t cancelled now).run.run env w = (.error e, w')) : w'.tasks = w.tasks := by
  have htasks := g.report_tasks t cancelled env w
  generalize hr : (g.report t cancelled).run.run env w = out at htasks
  obtain ⟨r, w₁⟩ := out
  cases r with
  | error e' =>
    rw [g.follow_of_error hr] at hrun
    cases hrun
    exact htasks
  | ok r =>
    obtain ⟨outcome, data⟩ := r
    cases hadvance : t.advance? outcome data now with
    | none =>
      rw [g.follow_of_stays hr hadvance] at hrun
      cases hrun
    | some t' =>
      rw [g.follow_of_advances hr hadvance] at hrun
      obtain ⟨-, -, rfl⟩ := Task.advance?_eq_some_iff.mp hadvance
      dsimp only at htasks
      rw [← htasks] at hstored
      obtain ⟨u, w₂, hkept⟩ := lift_keep_isOk env (g.withCopy_key_ensures
        (t.advanced outcome data now) now (fun _ => trivial) (fun _ => trivial) fun _ => trivial)
        hstored
      cases hkept.symm.trans hrun

/-- The attempt begins with a call and goes on in the same way after all replies
that have the same body. -/
def HeedsBody {α ε : Type} (a : Attempt ε α) (call : Http.Call) : Prop :=
  ∃ next, a.run = .perform (.call call) next ∧
    ∀ r r', Channel.bodyOf r = Channel.bodyOf r' → next r = next r'

namespace HeedsBody

variable {α β ε ε' : Type} {a : Attempt ε α} {call : Http.Call}

theorem ask (call : Http.Call) : HeedsBody (ask false (.ok call)) call := by
  refine ⟨fun reply => .done ((Channel.bodyOf reply).mapError id), rfl, fun r r' h => ?_⟩
  simp only [h]

theorem bind (h : HeedsBody a call) (f : α → Attempt ε β) : HeedsBody (a >>= f) call := by
  obtain ⟨next, ha, hnext⟩ := h
  rw [HeedsBody, ExceptT.run_bind, ha]
  refine ⟨_, rfl, fun r r' hbody => ?_⟩
  rw [hnext r r' hbody]

theorem mapError (h : HeedsBody a call) (f : ε → ε') : HeedsBody (a.mapError f) call := by
  obtain ⟨next, ha, hnext⟩ := h
  refine ⟨_, congrArg (Except.mapError f <$> ·) ha, fun r r' hbody => ?_⟩
  dsimp only
  rw [hnext r r' hbody]

theorem ofExcept_bind {f : ε → ε'} {b : β} {k : β → Attempt ε' α} (h : HeedsBody (k b) call) :
    HeedsBody (Attempt.ofExcept f (.ok b) >>= k) call := by
  obtain ⟨next, hk, hnext⟩ := h
  exact ⟨next, (Attempt.run_ofExcept_bind f _ k).trans hk, hnext⟩

end HeedsBody

/-- What follows the answer to a status question depends on its body alone. -/
theorem follow_heedsBody (hchannel : g.channelOf t = .ok c) {call : Http.Call}
    (hcall : c.statusCall t.id = .ok call) (now : Instant) :
    HeedsBody (g.follow t false now) call := by
  have hask : HeedsBody (ask false (c.statusCall t.id)) call := hcall ▸ HeedsBody.ask call
  have hfetch : HeedsBody (fetchStatus c t.id false) call := hask.bind _
  have hreport : HeedsBody (g.report t false) call := by
    unfold report
    rw [hchannel]
    apply HeedsBody.ofExcept_bind
    exact (hfetch.mapError _).bind _
  exact hreport.bind _

/-- The vendor has answered a poll of an unfinished task. -/
structure Answered (g : Gateway) (env : Surroundings σ) (w : World σ) (t : Task) (c : Channel)
    (response : Http.Response) : Prop where
  stored : w.tasks.get? t.channelId t.id = some t
  isFinal : t.isFinal = false
  channel : g.channelOf t = .ok c
  reply : ∃ call outside, c.statusCall t.id = .ok call ∧
    env.reply call w.outside = (.ok response, outside)

namespace Answered

variable {g} {response : Http.Response}

theorem ask_run (h : g.Answered env w t c response) :
    ∃ w', w'.tasks = w.tasks ∧ (ask false (c.statusCall t.id)).run.run env w =
      (Channel.bodyOf (.ok response), w') := by
  obtain ⟨call, outside, hcall, hreply⟩ := h.reply
  refine ⟨afterCall w call outside, rfl, ?_⟩
  rw [hcall]
  exact Gateway.ask_run hreply

theorem poll_of_unusable (h : g.Answered env w t c response)
    (hbody : Channel.bodyOf (.ok response) = .error e) :
    ((g.poll t.channelId t.id false now).run.run env w).1 = .error (.task e) := by
  obtain ⟨w', -, hask⟩ := h.ask_run
  rw [hbody] at hask
  have hfetch : (fetchStatus c t.id false).run.run env w = (.error e, w') :=
    Attempt.run_bind_of_error hask
  rw [g.poll_of_open h.stored h.isFinal, g.follow_of_error (g.report_of_error h.channel hfetch)]

theorem report_run (h : g.Answered env w t c response) (husable : ¬ response.Unusable)
    (hfile : c.vendor = .hailuo → Hailuo.fileToFind? response.body = none) :
    ∃ w', w'.tasks = w.tasks ∧ (g.report t false).run.run env w =
      (((c.outcome response.body).map fun o => (o, rawValue response.body)).mapError .task, w') := by
  obtain ⟨w', htasks, hask⟩ := h.ask_run
  rw [Channel.bodyOf_of_usable husable] at hask
  exact ⟨w', htasks, g.report_of_answer h.channel (fetchStatus_of_no_file hask hfile)⟩

theorem poll_of_unreadable (h : g.Answered env w t c response) (husable : ¬ response.Unusable)
    (hread : c.readPoll response.body = .error e) :
    ((g.poll t.channelId t.id false now).run.run env w).1 = .error (.task e) := by
  obtain ⟨w', -, hreport⟩ :=
    h.report_run husable fun hc => Hailuo.fileToFind?_of_unreadable hc hread
  have houtcome : c.outcome response.body = .error e := by
    rw [Channel.outcome, hread]
    rfl
  rw [houtcome] at hreport
  rw [g.poll_of_open h.stored h.isFinal, g.follow_of_error hreport]

theorem poll_of_failure (h : g.Answered env w t c response) (husable : ¬ response.Unusable)
    {reason : String} (houtcome : c.outcome response.body = .ok (.failure reason)) (now : Instant) :
    ∃ w', (g.poll t.channelId t.id false now).run.run env w =
      (.ok (t.advanced (.failure reason) (rawValue response.body) now), w') ∧
      w'.tasks = w.tasks.replace (t.advanced (.failure reason) (rawValue response.body) now) := by
  obtain ⟨w', htasks, hreport⟩ :=
    h.report_run husable fun hc => Hailuo.fileToFind?_of_failure hc houtcome
  rw [houtcome] at hreport
  have hstored : w'.tasks.get? t.channelId t.id = some t := by
    rw [htasks]
    exact h.stored
  rw [g.poll_of_open h.stored h.isFinal, g.follow_of_failure hreport h.isFinal hstored]
  exact ⟨_, rfl, by rw [htasks]⟩

/-- A poll that moves the task on without ending it in a failure was answered by a
report without an error. -/
theorem reports_of_poll (h : g.Answered env w t c response) {t' : Task}
    (hrun : ((g.poll t.channelId t.id false now).run.run env w).1 = .ok t')
    (hstatus : t'.status ≠ .failure) :
    ¬ response.Unusable ∧ ∃ p, c.readPoll response.body = .ok p ∧ p.error = none ∧
      ∀ reason, c.vendor.statuses.lookup? p.status ≠ some (.failed reason) := by
  have husable : ¬ response.Unusable := by
    intro hunusable
    obtain ⟨e, hbody, -⟩ := Channel.bodyOf_of_unusable hunusable
    cases (h.poll_of_unusable hbody).symm.trans hrun
  have hgoes : ∀ reason, c.outcome response.body ≠ .ok (.failure reason) := by
    intro reason houtcome
    obtain ⟨w', hfailed, -⟩ := h.poll_of_failure husable houtcome now
    rw [hfailed] at hrun
    cases hrun
    exact hstatus rfl
  refine ⟨husable, ?_⟩
  cases hread : c.readPoll response.body with
  | error e => cases (h.poll_of_unreadable husable hread).symm.trans hrun
  | ok p =>
    refine ⟨p, rfl, ?_, fun reason hlookup => ?_⟩
    · cases herror : p.error with
      | none => rfl
      | some e => exact absurd (c.outcome_of_error hread herror) (hgoes _)
    · cases herror : p.error with
      | some e => exact absurd (c.outcome_of_error hread herror) (hgoes _)
      | none =>
        refine hgoes reason ?_
        rw [Channel.outcome, hread, ok_bind, StatusTable.interpret, herror]
        simp only [hlookup]

end Answered

/-- A poll whose answer has the status of an overloaded or broken vendor fails and
leaves the store as it is. Of every other answer, those of a refusal included, the
body alone counts: one that cannot be read makes the poll fail, one that tells a
failure ends the task, and only a report without an error moves the task on, as it
would with a status that stands for success. -/
theorem refused_poll {response : Http.Response} (h : g.Answered env w t c response)
    {result : Except GatewayError Task}
    (hrun : (g.poll t.channelId t.id false now).run.run env w = (result, w')) :
    (∀ e, result = .error e → w'.tasks = w.tasks) ∧
    (response.Unusable → ∃ e, result = .error (.task e) ∧ e.kind = .transport) ∧
    (¬ response.Unusable → ∀ e, c.readPoll response.body = .error e →
      result = .error (.task e)) ∧
    (¬ response.Unusable → ∀ reason, c.outcome response.body = .ok (.failure reason) →
      ∃ t', result = .ok t' ∧ w'.tasks = w.tasks.replace t' ∧ t'.key = t.key ∧
        t'.status = .failure ∧ t'.progress = 100 ∧ t'.resultUrl = t.resultUrl ∧
        t'.failReason = some reason) ∧
    (∀ t', result = .ok t' → t'.status ≠ .failure →
      ¬ response.Unusable ∧ ∃ p, c.readPoll response.body = .ok p ∧ p.error = none ∧
        ∀ reason, c.vendor.statuses.lookup? p.status ≠ some (.failed reason)) ∧
    (¬ response.Unusable → ∃ call next, c.statusCall t.id = .ok call ∧
      (g.follow t false now).run = .perform (.call call) next ∧
      next (.ok response) = next (.ok response.accepted)) := by
  have hresult := congrArg Prod.fst hrun
  refine ⟨?_, ?_, ?_, ?_, ?_, ?_⟩
  · rintro e rfl
    rw [g.poll_of_open h.stored h.isFinal] at hrun
    exact g.follow_error_tasks h.stored hrun
  · intro hunusable
    obtain ⟨e, hbody, hkind⟩ := Channel.bodyOf_of_unusable hunusable
    exact ⟨e, hresult.symm.trans (h.poll_of_unusable hbody), hkind⟩
  · intro husable e hread
    exact hresult.symm.trans (h.poll_of_unreadable husable hread)
  · intro husable reason houtcome
    obtain ⟨w'', hfailed, htasks⟩ := h.poll_of_failure husable houtcome now
    obtain ⟨rfl, rfl⟩ := Prod.mk.inj (hrun.symm.trans hfailed)
    exact ⟨_, rfl, htasks, rfl, rfl, rfl, rfl, rfl⟩
  · rintro t' rfl hstatus
    exact h.reports_of_poll hresult hstatus
  · intro husable
    obtain ⟨call, -, hcall, -⟩ := h.reply
    obtain ⟨next, hfollow, hnext⟩ := g.follow_heedsBody h.channel hcall now
    refine ⟨call, next, hcall, hfollow, hnext _ _ ?_⟩
    rw [Channel.bodyOf_of_usable husable, Channel.bodyOf_accepted husable]

/-- Surroundings in which the vendor accepts a task and from then on refuses to
tell about it. -/
def refusingSurroundings (status : Http.Status) (body : String) : Surroundings Nat where
  reply _ calls :=
    (.ok (if calls = 0 then ⟨.ok, [], Text.Utf8.encode accepted, true⟩
      else ⟨status, [], Text.Utf8.encode body, true⟩), calls + 1)
  refuses _ calls := (false, calls)
where
  accepted := "\x7b\"id\":\"t1\"\x7d"

/-- The world after the task was accepted, and what becomes of the first poll. -/
def refusedStart (status : Http.Status) (body : String) : World Nat :=
  ((sample.submit Request.sample false ⟨0⟩).run.run (refusingSurroundings status body)
    (.fresh .starter 0)).2

def refusedRun (status : Http.Status) (body : String) : Except GatewayError Task × World Nat :=
  (sample.poll 7 "t1" false ⟨1⟩).run.run (refusingSurroundings status body)
    (refusedStart status body)

/-- The vendor does not know the task any more. -/
def goneBody : String :=
  "\x7b\"error\":\x7b\"code\":\"404\",\"message\":\"gone\"\x7d\x7d"

theorem refused_poll_gone : ∃ t', (refusedRun .notFound goneBody).1 = .ok t' ∧
    t'.status = .failure ∧ t'.failReason = some "[404] gone" := by
  have hstart : ((refusedStart .notFound goneBody).tasks.get? 7 "t1").map (·.isFinal) =
      some false ∧ (refusedStart .notFound goneBody).outside = 1 := by
    decide +kernel
  obtain ⟨t, ht, hopen⟩ := Option.map_eq_some_iff.mp hstart.1
  obtain ⟨hchannel, hid⟩ := Prod.mk.inj (TaskStore.key_of_get? ht)
  have hcall : (Channel.gone.statusCall "t1").toOption.isSome = true := by decide +kernel
  obtain ⟨call, hcall⟩ : ∃ call, Channel.gone.statusCall "t1" = .ok call := by
    cases hcases : Channel.gone.statusCall "t1" with
    | error e => rw [hcases] at hcall; cases hcall
    | ok call => exact ⟨call, rfl⟩
  have hanswered : sample.Answered (refusingSurroundings .notFound goneBody)
      (refusedStart .notFound goneBody) t Channel.gone
      ⟨.notFound, [], Text.Utf8.encode goneBody, true⟩ := by
    refine ⟨?_, hopen, ?_, call, 2, ?_, ?_⟩
    · rw [hchannel, hid]
      exact ht
    · rw [channelOf, hchannel]
      rfl
    · rw [hid]
      exact hcall
    · rw [hstart.2]
      rfl
  have husable : ¬ Http.Response.Unusable ⟨.notFound, [], Text.Utf8.encode goneBody, true⟩ := by
    simp [Http.Response.Unusable, Http.Status.notFound, Http.Status.tooManyRequests,
      Http.Status.isServerError]
  have houtcome : Channel.gone.outcome (Text.Utf8.encode goneBody) =
      .ok (.failure "[404] gone") := by
    decide +kernel
  have hrun : (sample.poll t.channelId t.id false ⟨1⟩).run.run
      (refusingSurroundings .notFound goneBody) (refusedStart .notFound goneBody) =
      refusedRun .notFound goneBody := by
    rw [hchannel, hid]
    rfl
  obtain ⟨t', hresult, -, -, hstatus, -, -, hreason⟩ :=
    (refused_poll sample hanswered hrun).2.2.2.1 husable _ houtcome
  exact ⟨t', hresult, hstatus, hreason⟩

/-- A refusal that tells nothing moves a queued task on. -/
theorem forbidden_poll_moves_on :
    Http.Status.isSuccess ⟨403⟩ = false ∧
    ((refusedStart ⟨403⟩ "\x7b\x7d").tasks.get? 7 "t1").map (fun t => (t.status, t.progress)) =
      some (.queued, 0) ∧
    ((refusedRun ⟨403⟩ "\x7b\x7d").2.tasks.get? 7 "t1").map (fun t => (t.status, t.progress)) =
      some (.inProgress, 30) := by
  decide +kernel

end Gateway

end VideoGateway

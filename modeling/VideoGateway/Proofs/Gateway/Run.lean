import Mathlib.Logic.Relation
import VideoGateway.Proofs.Gateway.Polling
import VideoGateway.Proofs.Gateway.Requests
import VideoGateway.Proofs.Gateway.Submission

/-!
# Runs of the gateway

One thing after the other happens to the gateway, in any order and with any
answers from outside: submissions, polls, passes over the unfinished tasks,
timeouts, reads and new price rules. Every step either settles the store or adds
the record of a submission, so over any run records of the right shape follow
records, and each goes back to the submission that wrote it.
-/
namespace VideoGateway

namespace TaskStore

variable {s s' : TaskStore} {t : Task}

theorem Adds.evolves (h : s.Adds t s') : s.Evolves s' :=
  fun _ _ u hu => ⟨u, h.get?_of_get? hu, .refl u⟩

theorem Adds.wellShaped (h : s.Adds t s') (hs : s.WellShaped) (ht : t.WellShaped) :
    s'.WellShaped := by
  intro c id u hu
  rcases h.get?_cases hu with hold | rfl
  · exact hs c id u hold
  · exact ht

end TaskStore

variable {σ : Type} {g : Gateway} {env : Surroundings σ} {w w' : World σ}

namespace World

/-- A world in which a run can begin. -/
def withoutTasks (w : World σ) : World σ :=
  { w with tasks := .empty }

theorem withoutTasks_wellShaped (w : World σ) : w.withoutTasks.tasks.WellShaped := by
  intro c id t ht
  rw [withoutTasks, TaskStore.get?_empty] at ht
  cases ht

end World

namespace Gateway

/-- One thing that happens to the gateway, from its beginning to its end. -/
inductive Step (g : Gateway) (env : Surroundings σ) (w : World σ) : World σ → Prop
  /-- A request arrives. -/
  | request (r : Http.Request) (cancelled : Bool) (now : Instant) :
      Step g env w ((g.handle r cancelled now).run env w).2
  | submit (r : Request) (cancelled : Bool) (now : Instant) :
      Step g env w ((g.submit r cancelled now).run.run env w).2
  | poll (channelId : Nat) (taskId : String) (cancelled : Bool) (now : Instant) :
      Step g env w ((g.poll channelId taskId cancelled now).run.run env w).2
  /-- Tasks that took too long are ended, and the polls of the others go on at the
  same time, each with a clock of its own. -/
  | pass (timeout : Int) (now : Instant) (cancelled : Task → Bool) (clock : Task → Instant)
      {w₁ w₂ : World σ} :
      ((expire now timeout now).run.run env w).2 = w₁ →
      Program.Interleaves env (g.polls cancelled clock w₁.tasks.unfinished) w₁ w₂ →
      Step g env w w₂
  | expire (asOf : Instant) (timeout : Int) (now : Instant) :
      Step g env w ((expire asOf timeout now).run.run env w).2
  | document (taskId : String) : Step g env w ((g.document taskId).run.run env w).2
  | content (taskId : String) : Step g env w ((g.content taskId).run.run env w).2
  | setRules (rules : PriceRules) : Step g env w { w with rules := rules }

abbrev Reaches (g : Gateway) (env : Surroundings σ) : World σ → World σ → Prop :=
  Relation.ReflTransGen (g.Step env)

theorem pollPass_step (timeout : Int) (cancelled : Bool) (now : Instant) :
    g.Step env w ((g.pollPass timeout cancelled now).run env w).2 := by
  refine .pass timeout now (fun _ => cancelled) (fun _ => now) rfl ?_
  unfold pollPass
  rw [Program.run_bind]
  exact g.pollAll_interleaves cancelled now _

/-- A submission writes a record and gives its receipt. -/
structure Writes (g : Gateway) (env : Surroundings σ) (w w' : World σ) (t : Task) : Prop where
  submitted : ∃ r cancelled, (g.submit r cancelled t.createdAt).run.run env w =
    (.ok ⟨t.id, t.model, t.action, t.billingRatio⟩, w')
  added : w.tasks.Adds t w'.tasks
  status : t.status = .queued
  wellShaped : t.WellShaped

theorem submit_settles_or_writes (r : Request) (cancelled : Bool) (now : Instant) :
    w.tasks.Settles ((g.submit r cancelled now).run.run env w).2.tasks ∨
      ∃ t, g.Writes env w ((g.submit r cancelled now).run.run env w).2 t := by
  rcases g.submit_cases env w r cancelled now with ⟨e, -, hrun⟩ | ⟨o, -, hplaced⟩
  · exact .inl (.of_eq (by rw [hrun]))
  · generalize hrun : (g.submit r cancelled now).run.run env w = out at hplaced ⊢
    cases hplaced with
    | refused _ htasks | taken htasks => exact .inl (.of_eq htasks)
    | @recorded accepted _ _ hadds =>
      exact .inr ⟨o.task _ accepted now, ⟨r, cancelled, hrun⟩, hadds, rfl,
        Task.submitted_wellShaped _ _ _ _ _ _ _⟩

theorem expire_settles (env : Surroundings σ) (hw : w.tasks.WellShaped) (asOf : Instant)
    (timeout : Int) (now : Instant) :
    w.tasks.Settles ((Gateway.expire asOf timeout now).run.run env w).2.tasks := by
  rw [expire_run]
  exact TaskStore.timedOut_settles hw w.tasks.holds_unfinished

theorem Step.settles_or_writes (h : g.Step env w w') (hw : w.tasks.WellShaped) :
    w.tasks.Settles w'.tasks ∨ ∃ t, g.Writes env w w' t := by
  cases h with
  | request r cancelled now =>
    rcases g.handle_run_snd env w r cancelled now with h | ⟨request, h⟩
    · exact .inl (.of_eq h)
    · rw [h]
      exact submit_settles_or_writes request cancelled now
  | submit r cancelled now => exact submit_settles_or_writes r cancelled now
  | poll c id cancelled now => exact .inl (g.poll_tasks_settles hw c id cancelled now)
  | pass timeout now cancelled clock hexpired hpolls =>
    have hexpire := expire_settles env hw now timeout now
    rw [hexpired] at hexpire
    exact .inl (hexpire.trans
      (g.polls_settle (hexpire.wellShaped hw) (TaskStore.holds_unfinished _) hpolls))
  | expire asOf timeout now => exact .inl (expire_settles env hw asOf timeout now)
  | document id =>
    exact .inl (.of_eq ((g.document_ensures id trivial fun _ => trivial).run_tasks env w))
  | content id =>
    exact .inl (.of_eq ((g.content_ensures id trivial (fun _ => trivial) (fun _ => trivial)
      fun _ => trivial).run_tasks env w))
  | setRules rules => exact .inl (.refl _)

theorem Step.evolves (h : g.Step env w w') (hw : w.tasks.WellShaped) :
    w.tasks.Evolves w'.tasks ∧ w'.tasks.WellShaped := by
  rcases h.settles_or_writes hw with hsettles | ⟨t, hwrites⟩
  · exact ⟨hsettles.evolves, hsettles.wellShaped hw⟩
  · exact ⟨hwrites.added.evolves, hwrites.added.wellShaped hw hwrites.wellShaped⟩

theorem Reaches.evolves (h : g.Reaches env w w') (hw : w.tasks.WellShaped) :
    w.tasks.Evolves w'.tasks ∧ w'.tasks.WellShaped := by
  induction h with
  | refl => exact ⟨.refl _, hw⟩
  | tail _ hstep ih =>
    obtain ⟨hevolves, hshaped⟩ := ih
    obtain ⟨hnext, hshaped'⟩ := hstep.evolves hshaped
    exact ⟨hevolves.trans hnext, hshaped'⟩

/-- Every record of a run goes back to a submission of this run. -/
theorem Reaches.writes {w₀ : World σ} {c : Nat} {id : String} {t : Task}
    (h : g.Reaches env w₀.withoutTasks w) (ht : w.tasks.get? c id = some t) :
    ∃ w₁ w₂ t₀, g.Reaches env w₀.withoutTasks w₁ ∧ g.Writes env w₁ w₂ t₀ ∧
      g.Reaches env w₂ w ∧ t₀.Evolves t := by
  induction h generalizing t with
  | refl => cases ht
  | @tail u w hrun hstep ih =>
    have hu := (Reaches.evolves hrun w₀.withoutTasks_wellShaped).2
    -- The record follows one that was there before the last step, or this step wrote it.
    rcases hstep.settles_or_writes hu with hsettles | ⟨t₀, hwrites⟩
    · cases hold : u.tasks.get? c id with
      | none => rw [hsettles.nothingNew c id hold] at ht; cases ht
      | some told =>
        obtain ⟨w₁, w₂, t₀, hbefore, hwrites, hafter, hle⟩ := ih hold
        obtain ⟨t', ht', hlater⟩ := hsettles.evolves c id told hold
        obtain rfl : t' = t := Option.some.inj (ht'.symm.trans ht)
        exact ⟨w₁, w₂, t₀, hbefore, hwrites, hafter.tail hstep, hle.trans hlater⟩
    · rcases hwrites.added.get?_cases ht with hold | rfl
      · obtain ⟨w₁, w₂, t₁, hbefore, hwrites₁, hafter, hle⟩ := ih hold
        exact ⟨w₁, w₂, t₁, hbefore, hwrites₁, hafter.tail hstep, hle⟩
      · exact ⟨u, w, t, hrun, hwrites, .refl, .refl t⟩

/-- A record goes back to the submission that wrote it, whose values it keeps.
From then on it is there for ever, and neither its status nor its progress goes
back; once it is finished, it never changes again, no pass asks about it, and a
poll of it does nothing else than to give it. -/
theorem record_lifecycle {w₀ : World σ} {c : Nat} {id : String} {t : Task}
    (h : g.Reaches env w₀.withoutTasks w) (ht : w.tasks.get? c id = some t) :
    (∃ w₁ w₂ t₀, g.Reaches env w₀.withoutTasks w₁ ∧ g.Writes env w₁ w₂ t₀ ∧
      g.Reaches env w₂ w ∧ t₀.Evolves t) ∧
    ∀ w', g.Reaches env w w' → ∃ t', w'.tasks.get? c id = some t' ∧ t.Evolves t' ∧
      (t.isFinal = true → t' = t ∧ t ∉ w'.tasks.unfinished ∧ ∀ cancelled now,
        (g.poll c id cancelled now).run.run env w' = (.ok t, w')) := by
  refine ⟨h.writes ht, fun w' hlater => ?_⟩
  have hw := (Reaches.evolves h w₀.withoutTasks_wellShaped).2
  obtain ⟨t', ht', hle⟩ := (Reaches.evolves hlater hw).1 c id t ht
  refine ⟨t', ht', hle, fun hfinal => ?_⟩
  obtain rfl := hle.final hfinal
  refine ⟨rfl, fun hmem => ?_, g.poll_of_isFinal ht' hfinal⟩
  have hopen := (TaskStore.mem_unfinished.mp hmem).2
  simp [hfinal] at hopen

def sampleFinished : World Unit :=
  ((sample.poll 7 "t1" false ⟨1⟩).run.run sampleSurroundings sampleRun.2).2

theorem sampleFinished_reached :
    sample.Reaches sampleSurroundings (World.fresh .starter ()).withoutTasks sampleFinished :=
  .tail (.single (.submit Request.sample false ⟨0⟩)) (.poll 7 "t1" false ⟨1⟩)

theorem sampleFinished_success : ∃ t, sampleFinished.tasks.get? 7 "t1" = some t ∧
    t.status = .success := by
  have hstatus : (sampleFinished.tasks.get? 7 "t1").map (·.status) = some .success := by
    decide +kernel
  exact Option.map_eq_some_iff.mp hstatus

theorem sample_record_lifecycle : ∃ t, sampleFinished.tasks.get? 7 "t1" = some t ∧
    t.isFinal = true ∧ ∀ w', sample.Reaches sampleSurroundings sampleFinished w' →
      w'.tasks.get? 7 "t1" = some t := by
  obtain ⟨t, ht, hstatus⟩ := sampleFinished_success
  have hfinal : t.isFinal = true := by simp [Task.isFinal, hstatus, TaskStatus.isFinal]
  refine ⟨t, ht, hfinal, fun w' hlater => ?_⟩
  obtain ⟨t', ht', -, hsame⟩ := (record_lifecycle sampleFinished_reached ht).2 w' hlater
  rw [ht', (hsame hfinal).1]

/-- Every record of a reachable world has the shape of its status. -/
theorem record_wellShaped {w₀ : World σ} {c : Nat} {id : String} {t : Task}
    (h : g.Reaches env w₀.withoutTasks w) (ht : w.tasks.get? c id = some t) : t.WellShaped :=
  (Reaches.evolves h w₀.withoutTasks_wellShaped).2 c id t ht

theorem sample_record_wellShaped : ∃ t, sampleFinished.tasks.get? 7 "t1" = some t ∧
    t.Succeeded := by
  obtain ⟨t, ht, hstatus⟩ := sampleFinished_success
  have hshape := record_wellShaped sampleFinished_reached ht
  unfold Task.WellShaped at hshape
  rw [hstatus] at hshape
  exact ⟨t, ht, hshape⟩

end Gateway

end VideoGateway

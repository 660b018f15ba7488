import VideoGateway.Proofs.Gateway.Reach
import VideoGateway.Proofs.Gateway.SingleTask

/-!
# Polls and timeouts settle the store

A poll minds the one task that it asks about, so polls of different tasks settle
the store in whatever order their effects come. A timeout ends its tasks one
after the other.
-/
namespace VideoGateway

variable {σ : Type} {env : Surroundings σ} {w : World σ}

namespace TaskStore

variable {s : TaskStore} {t : Task} {ts : List Task}

/-- The tasks stand in the store, are not finished, and are all different. -/
structure Holds (s : TaskStore) (ts : List Task) : Prop where
  get? : ∀ t ∈ ts, s.get? t.channelId t.id = some t
  isFinal : ∀ t ∈ ts, t.isFinal = false
  nodup : (ts.map Task.key).Nodup

theorem holds_unfinished (s : TaskStore) : s.Holds s.unfinished :=
  ⟨fun _ ht => (mem_unfinished.mp ht).1, fun _ ht => (mem_unfinished.mp ht).2,
    s.unfinished_keys_nodup⟩

theorem Holds.tail (h : s.Holds (t :: ts)) : s.Holds ts :=
  ⟨fun u hu => h.get? u (.tail t hu), fun u hu => h.isFinal u (.tail t hu),
    (List.nodup_cons.mp h.nodup).2⟩

theorem Holds.replace (h : s.Holds (t :: ts)) {t' : Task} (hkey : t'.key = t.key) :
    (s.replace t').Holds ts := by
  refine ⟨?_, h.tail.isFinal, h.tail.nodup⟩
  intro u hu
  rw [get?_replace_of_ne, h.tail.get? u hu]
  intro heq
  have heq : u.key = t.key := heq.trans hkey
  exact (List.nodup_cons.mp h.nodup).1 (heq ▸ List.mem_map_of_mem hu)

end TaskStore

namespace Gateway

variable (g : Gateway)

theorem follow_settles {t : Task} (ht : t.WellShaped) (hopen : t.isFinal = false)
    (cancelled : Bool) (now : Instant) : (g.follow t cancelled now).run.Settles t := by
  unfold follow
  refine Attempt.Settles.bind (g.report_ensures t cancelled (fun _ _ _ _ => trivial)
    (fun _ _ _ _ _ => trivial)) fun r hr => ?_
  obtain ⟨outcome, data⟩ := r
  dsimp only
  cases hadvance : t.advance? outcome data now with
  | none => exact .rest (.done trivial)
  | some t' =>
    obtain ⟨hle, hshape⟩ := Task.advance?_evolves ht hr.sound hadvance
    have hcopy : (if t'.status = .success then g.withCopy t' now else pure t').Ensures
        Effect.KeepsTasks fun u => t.Evolves u ∧ u.WellShaped := by
      split
      · next hs =>
        refine (g.withCopy_ensures t' now (fun _ _ => trivial) (fun _ => trivial)
          fun _ => trivial).mono ?_
        rintro u (rfl | ⟨key, url, rfl⟩)
        · exact ⟨hle, hshape⟩
        · exact ⟨hle.withStored hopen key url, hshape.withStored hs key url⟩
      · exact .done ⟨hle, hshape⟩
    refine Attempt.Settles.bind (.lift hcopy) fun u hu => ?_
    refine .replace hu.1 hu.2 fun answer => ?_
    cases answer <;> exact .done trivial

theorem poll_settles {t : Task} (ht : t.WellShaped) (cancelled : Bool) (now : Instant) :
    (g.poll t.channelId t.id cancelled now).run.Settles t := by
  unfold poll
  rw [Attempt.run_effect_bind]
  refine Program.Settles.look ?_
  dsimp only
  split
  · exact .rest (.done trivial)
  · next hopen => exact g.follow_settles ht (Bool.eq_false_iff.mpr hopen) cancelled now

theorem poll_of_isFinal {c : Nat} {id : String} {t : Task} (ht : w.tasks.get? c id = some t)
    (hfinal : t.isFinal = true) (cancelled : Bool) (now : Instant) :
    (g.poll c id cancelled now).run.run env w = (.ok t, w) := by
  unfold poll
  rw [Attempt.run_effect_bind, Program.run_perform]
  simp only [Effect.perform, ht, hfinal, ↓reduceIte]
  rfl

theorem poll_of_get?_eq_none {c : Nat} {id : String} (ht : w.tasks.get? c id = none)
    (cancelled : Bool) (now : Instant) :
    (g.poll c id cancelled now).run.run env w = (.error (.unknownTaskOn c id), w) := by
  unfold poll
  rw [Attempt.run_effect_bind, Program.run_perform]
  simp only [Effect.perform, ht]
  rfl

theorem poll_tasks_settles (hw : w.tasks.WellShaped) (c : Nat) (id : String) (cancelled : Bool)
    (now : Instant) :
    w.tasks.Settles ((g.poll c id cancelled now).run.run env w).2.tasks := by
  cases ht : w.tasks.get? c id with
  | none =>
    rw [g.poll_of_get?_eq_none ht]
    exact .refl _
  | some t =>
    obtain ⟨rfl, rfl⟩ := Prod.mk.inj (TaskStore.key_of_get? ht).symm
    exact (g.poll_settles (hw _ _ _ ht) cancelled now).run env ht

/-- The polls of some tasks, each with a clock of its own and each cancelled or
not. -/
def polls (cancelled : Task → Bool) (clock : Task → Instant) (ts : List Task) :
    List (Program (Except GatewayError Task)) :=
  ts.map fun t => (g.poll t.channelId t.id (cancelled t) (clock t)).run

/-- One poll after the other is an order of the effects of all polls. -/
theorem pollAll_interleaves (cancelled : Bool) (now : Instant) (ts : List Task) :
    Program.Interleaves env (g.polls (fun _ => cancelled) (fun _ => now) ts) w
      ((g.pollAll cancelled now ts).run env w).2 := by
  induction ts generalizing w with
  | nil => exact .finished (by simp [polls])
  | cons t ts ih =>
    refine .cons_run ?_
    rw [pollAll, Program.run_bind]
    exact ih

theorem polls_settle {ts : List Task} (hw : w.tasks.WellShaped) (hts : w.tasks.Holds ts)
    {cancelled : Task → Bool} {clock : Task → Instant} {w' : World σ}
    (h : Program.Interleaves env (g.polls cancelled clock ts) w w') :
    w.tasks.Settles w'.tasks := by
  refine h.settles hts.nodup ?_
  rw [polls, List.forall₂_map_right_iff, List.forall₂_same]
  intro t ht
  exact .inl ⟨hts.get? t ht, g.poll_settles (hw _ _ _ (hts.get? t ht)) _ _⟩

end Gateway

namespace Task

def isOlder (t : Task) (asOf : Instant) (timeout : Int) : Bool :=
  timeout < asOf.since t.createdAt

def timedOut (t : Task) (now : Instant) : Task :=
  t.advanced Gateway.timedOut t.data now

theorem advance?_timedOut {t : Task} (hopen : t.isFinal = false) (now : Instant) :
    t.advance? Gateway.timedOut t.data now = some (t.timedOut now) :=
  advance?_of_isFinal hopen rfl t.data now

theorem timedOut_evolves {t : Task} (ht : t.WellShaped) (hopen : t.isFinal = false)
    (now : Instant) : t.Evolves (t.timedOut now) ∧ (t.timedOut now).WellShaped :=
  advance?_evolves ht (.failure (by decide)) (advance?_timedOut hopen now)

end Task

namespace TaskStore

variable {s : TaskStore} {t : Task} {ts : List Task}

/-- The store in which those of some tasks that are older than a time have
failed. -/
def timedOut (asOf : Instant) (timeout : Int) (now : Instant) (s : TaskStore) (ts : List Task) :
    TaskStore :=
  ts.foldl (fun s t => if t.isOlder asOf timeout then s.replace (t.timedOut now) else s) s

theorem timedOut_settles {asOf : Instant} {timeout : Int} {now : Instant} (hs : s.WellShaped)
    (hts : s.Holds ts) : s.Settles (s.timedOut asOf timeout now ts) := by
  induction ts generalizing s with
  | nil => exact .refl s
  | cons t ts ih =>
    rw [timedOut, List.foldl_cons]
    split
    · have ht := hts.get? t List.mem_cons_self
      obtain ⟨hle, hshape⟩ := Task.timedOut_evolves (hs _ _ _ ht)
        (hts.isFinal t List.mem_cons_self) now
      have hstep : s.Settles (s.replace (t.timedOut now)) := replace_settles ht hle hshape
      exact hstep.trans (ih (hstep.wellShaped hs) (hts.replace hle.key))
    · exact ih hs hts.tail

end TaskStore

namespace Gateway

theorem keep_run {t u : Task} (h : w.tasks.get? t.channelId t.id = some u) :
    (keep t).run.run env w = (.ok t, { w with tasks := w.tasks.replace t }) := by
  unfold keep
  rw [Attempt.run_effect_bind, Program.run_perform, Effect.perform_updateTask env h]
  rfl

/-- A timeout ends, of the tasks given, those that are old enough, and counts
them. -/
theorem expireAll_run (asOf : Instant) (timeout : Int) (now : Instant) {ts : List Task}
    (hts : w.tasks.Holds ts) :
    (expireAll asOf timeout now ts).run.run env w =
      (.ok (ts.countP (·.isOlder asOf timeout)),
        { w with tasks := w.tasks.timedOut asOf timeout now ts }) := by
  induction ts generalizing w with
  | nil => rfl
  | cons t ts ih =>
    have ht := hts.get? t List.mem_cons_self
    have hopen := hts.isFinal t List.mem_cons_self
    rw [expireAll, TaskStore.timedOut, List.foldl_cons, List.countP_cons]
    by_cases hold : asOf.since t.createdAt ≤ timeout
    · have hyoung : t.isOlder asOf timeout = false := by simp [Task.isOlder, hold]
      rw [if_pos hold, ih hts.tail, hyoung]
      rfl
    · have holder : t.isOlder asOf timeout = true := by simpa [Task.isOlder] using hold
      have hkeep : (keep (t.timedOut now)).run.run env w =
          (.ok (t.timedOut now), { w with tasks := w.tasks.replace (t.timedOut now) }) :=
        keep_run ht
      have hothers : (w.tasks.replace (t.timedOut now)).Holds ts := hts.replace rfl
      have hrest := ih (w := { w with tasks := w.tasks.replace (t.timedOut now) }) hothers
      simp only [if_neg hold, Task.advance?_timedOut hopen, holder, ↓reduceIte]
      rw [ExceptT.run_bind, Program.run_bind, hkeep]
      dsimp only
      rw [ExceptT.run_bind, Program.run_bind, hrest]
      rfl

theorem expire_run (asOf : Instant) (timeout : Int) (now : Instant) :
    (expire asOf timeout now).run.run env w =
      (.ok (w.tasks.unfinished.countP (·.isOlder asOf timeout)),
        { w with tasks := w.tasks.timedOut asOf timeout now w.tasks.unfinished }) := by
  unfold expire
  rw [Attempt.run_effect_bind, Program.run_perform]
  exact expireAll_run asOf timeout now w.tasks.holds_unfinished

end Gateway

end VideoGateway

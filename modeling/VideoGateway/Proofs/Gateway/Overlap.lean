import Mathlib.Data.List.Perm.Subperm
import VideoGateway.Proofs.Gateway.Polling
import VideoGateway.Proofs.Gateway.Run

/-!
# Calls that overlap

Any number of polls and timeouts may be under way at the same time, each at its
own place between two effects, and a schedule tells which of them acts next. A
call holds a task from where it reads it unfinished to where it writes it. A
finished record is changed by such a call only: whoever reads the task later, or
has written it already, leaves the record as it is. Two polls of one task that
overlap can take a success back.
-/
namespace VideoGateway

variable {σ α β ε : Type}

/-- The place of a task in the store. -/
abbrev TaskKey := Nat × String

namespace Effect

/-- The tasks that are held after an effect. -/
def heldAfter (held : List TaskKey) : (e : Effect) → e.Answer → List TaskKey
  | .getTask _ _, some t => if t.isFinal then held else t.key :: held
  | .unfinishedTasks, ts => ts.map Task.key ++ held
  | .updateTask t, _ => held.erase t.key
  | _, _ => held

/-- The effect writes no task but one that is held. -/
def Within (held : List TaskKey) : Effect → Prop
  | .insertTask _ => False
  | .updateTask t => t.key ∈ held
  | _ => True

def Quiet : Effect → Prop
  | .getTask _ _ | .findTask _ | .insertTask _ | .updateTask _ | .unfinishedTasks => False
  | _ => True

theorem Quiet.within {e : Effect} (h : e.Quiet) (held : List TaskKey) : e.Within held := by
  cases e with
  | insertTask t | updateTask t => exact h.elim
  | _ => trivial

theorem Quiet.heldAfter_eq {e : Effect} (h : e.Quiet) (held : List TaskKey) (answer : e.Answer) :
    heldAfter held e answer = held := by
  cases e with
  | getTask c id | findTask id | insertTask t | updateTask t | unfinishedTasks => exact h.elim
  | _ => rfl

/-- A task that comes to be held was read unfinished. -/
theorem mem_heldAfter {e : Effect} {held : List TaskKey} {key : TaskKey} (env : Surroundings σ)
    {w : World σ} (h : key ∈ heldAfter held e (e.perform env w).1) :
    key ∈ held ∨ ∃ t, w.tasks.get? key.1 key.2 = some t ∧ t.isFinal = false := by
  cases e with
  | getTask c id =>
    have hread : key ∈ heldAfter held (.getTask c id) (w.tasks.get? c id) := h
    cases ht : w.tasks.get? c id with
    | none =>
      rw [ht] at hread
      exact .inl hread
    | some t =>
      rw [ht] at hread
      simp only [heldAfter] at hread
      split at hread
      · exact .inl hread
      · next hopen =>
        rcases List.mem_cons.mp hread with rfl | hold
        · have hown : w.tasks.get? t.channelId t.id = some t := by
            obtain ⟨rfl, rfl⟩ := Prod.mk.inj (TaskStore.key_of_get? ht)
            exact ht
          exact .inr ⟨t, hown, Bool.eq_false_iff.mpr hopen⟩
        · exact .inl hold
  | unfinishedTasks =>
    rcases List.mem_append.mp h with hread | hold
    · obtain ⟨t, ht, rfl⟩ := List.mem_map.mp hread
      exact .inr ⟨t, TaskStore.mem_unfinished.mp ht⟩
    · exact .inl hold
  | updateTask t => exact .inl (List.mem_of_mem_erase h)
  | _ => exact .inl h

theorem Within.get?_perform {e : Effect} {held : List TaskKey} (he : e.Within held)
    (env : Surroundings σ) {w : World σ} {c : Nat} {id : String} (hfree : (c, id) ∉ held) :
    (e.perform env w).2.tasks.get? c id = w.tasks.get? c id := by
  rcases e.keepsTasks_or with hkeeps | ⟨u, rfl⟩ | ⟨u, rfl⟩
  · rw [hkeeps.perform_tasks env w]
  · exact he.elim
  · have hu : u.key ∈ held := he
    have hne : (c, id) ≠ u.key := fun heq => hfree (heq ▸ hu)
    simp only [perform, World.store]
    cases hupdate : w.tasks.update u with
    | error fault => rfl
    | ok tasks =>
      rw [TaskStore.eq_replace_of_update hupdate]
      exact TaskStore.get?_replace_of_ne hne

/-- An effect of somebody who does not hold a finished task leaves its record as it
is, and the task is not held after it either. -/
theorem Within.perform_of_isFinal {e : Effect} {held : List TaskKey} (he : e.Within held)
    (env : Surroundings σ) {w : World σ} {c : Nat} {id : String} {t : Task}
    (ht : w.tasks.get? c id = some t) (hfinal : t.isFinal = true) (hfree : (c, id) ∉ held) :
    (e.perform env w).2.tasks.get? c id = some t ∧
      (c, id) ∉ heldAfter held e (e.perform env w).1 := by
  refine ⟨(he.get?_perform env hfree).trans ht, fun hmem => ?_⟩
  rcases mem_heldAfter env hmem with hold | ⟨u, hu, hopen⟩
  · exact hfree hold
  · obtain rfl : t = u := Option.some.inj (ht.symm.trans hu)
    rw [hfinal] at hopen
    cases hopen

end Effect

namespace Program

/-- What is left of a program writes the tasks that are held, and those that it
will have read unfinished by then. -/
inductive Careful : List TaskKey → Program α → Prop
  | done {held : List TaskKey} {a : α} : Careful held (.done a)
  | perform {held : List TaskKey} {e : Effect} {next : e.Answer → Program α} : e.Within held →
      (∀ answer, Careful (e.heldAfter held answer) (next answer)) →
      Careful held (.perform e next)

theorem Careful.bind {held : List TaskKey} {p : Program α} {f : α → Program β}
    (hp : p.Careful held) (hf : ∀ a held, (f a).Careful held) : (p >>= f).Careful held := by
  induction hp with
  | done => exact hf _ _
  | perform he _ ih => exact .perform he ih

theorem Careful.quiet_bind {Q : α → Prop} {held : List TaskKey} {p : Program α}
    {f : α → Program β} (hp : p.Ensures Effect.Quiet Q) (hf : ∀ a, Q a → (f a).Careful held) :
    (p >>= f).Careful held := by
  induction hp with
  | done ha => exact hf _ ha
  | @perform e next he _ ih =>
    refine .perform (he.within held) fun answer => ?_
    rw [he.heldAfter_eq]
    exact ih answer

end Program

theorem Attempt.careful_bind {Q : α → Prop} {held : List TaskKey} {a : Attempt ε α}
    {f : α → Attempt ε β} (ha : a.Ensures Effect.Quiet Q)
    (hf : ∀ x, Q x → (f x).run.Careful held) : (a >>= f).run.Careful held := by
  refine Program.Careful.quiet_bind ha fun r hr => ?_
  cases r with
  | error e => exact .done
  | ok x => exact hf x (hr x rfl)

/-- A call that is under way: what is left of it, and the tasks that it holds. -/
structure Caller where
  rest : Program Unit
  held : List TaskKey

namespace Caller

def isDone (c : Caller) : Bool :=
  match c.rest with
  | .done _ => true
  | .perform _ _ => false

def act (env : Surroundings σ) (c : Caller) (w : World σ) : Caller × World σ :=
  match c.rest with
  | .done _ => (c, w)
  | .perform e next =>
    let (answer, w) := e.perform env w
    (⟨next answer, e.heldAfter c.held answer⟩, w)

end Caller

/-- Calls that are under way in one world. -/
structure Pool (σ : Type) where
  callers : List Caller
  world : World σ

namespace Pool

variable {env : Surroundings σ} {p : Pool σ} {i j : Nat} {key : TaskKey}

def turn (env : Surroundings σ) (p : Pool σ) (i : Nat) : Pool σ :=
  match p.callers[i]? with
  | none => p
  | some caller =>
    let (caller, world) := caller.act env p.world
    ⟨p.callers.set i caller, world⟩

/-- The calls after those turns that a schedule gives them. -/
def after (env : Surroundings σ) (p : Pool σ) (schedule : List Nat) : Pool σ :=
  schedule.foldl (turn env) p

/-- A call that has not come to its end holds a task. -/
def Holds (p : Pool σ) (i : Nat) (key : TaskKey) : Prop :=
  ∃ caller, p.callers[i]? = some caller ∧ caller.isDone = false ∧ key ∈ caller.held

/-- Every call writes what it holds and nothing else. -/
def Careful (p : Pool σ) : Prop :=
  ∀ caller ∈ p.callers, caller.rest.Careful caller.held

theorem after_append (env : Surroundings σ) (p : Pool σ) (schedule more : List Nat) :
    p.after env (schedule ++ more) = (p.after env schedule).after env more :=
  List.foldl_append

theorem turn_of_getElem? {caller : Caller} (h : p.callers[i]? = some caller) :
    p.turn env i = ⟨p.callers.set i (caller.act env p.world).1, (caller.act env p.world).2⟩ := by
  simp only [turn, h]

theorem getElem?_turn_of_ne (h : i ≠ j) : (p.turn env i).callers[j]? = p.callers[j]? := by
  unfold turn
  split
  · rfl
  · exact List.getElem?_set_ne h

theorem getElem?_after_of_notMem {schedule : List Nat} (h : j ∉ schedule) :
    (p.after env schedule).callers[j]? = p.callers[j]? := by
  induction schedule generalizing p with
  | nil => rfl
  | cons i schedule ih =>
    rw [List.mem_cons, not_or] at h
    exact (ih h.2).trans (getElem?_turn_of_ne (Ne.symm h.1))

theorem Careful.turn (hp : p.Careful) (env : Surroundings σ) (i : Nat) :
    (p.turn env i).Careful := by
  unfold Pool.turn
  split
  · exact hp
  · next caller hcaller =>
    intro other hother
    rcases List.mem_or_eq_of_mem_set hother with hold | rfl
    · exact hp other hold
    · have hrest := hp caller (List.mem_of_getElem? hcaller)
      unfold Caller.act
      split
      · next hdone => exact hp caller (List.mem_of_getElem? hcaller)
      · next e next hperform =>
        rw [hperform] at hrest
        cases hrest with
        | perform _ hnext => exact hnext _

theorem Careful.after (hp : p.Careful) (env : Surroundings σ) (schedule : List Nat) :
    (p.after env schedule).Careful := by
  induction schedule generalizing p with
  | nil => exact hp
  | cons i schedule ih => exact ih (hp.turn env i)

/-- A turn of a call that does not hold a finished task: the record stays, and no
call has come to hold the task. -/
theorem Careful.turn_of_isFinal (hp : p.Careful) {c : Nat} {id : String} {t : Task}
    (ht : p.world.tasks.get? c id = some t) (hfinal : t.isFinal = true)
    (hfree : ¬ p.Holds i (c, id)) :
    (p.turn env i).world.tasks.get? c id = some t ∧
      ∀ j, (p.turn env i).Holds j (c, id) → p.Holds j (c, id) := by
  cases hcaller : p.callers[i]? with
  | none =>
    have hstill : p.turn env i = p := by simp only [Pool.turn, hcaller]
    rw [hstill]
    exact ⟨ht, fun _ h => h⟩
  | some caller =>
    have hrest := hp caller (List.mem_of_getElem? hcaller)
    rw [turn_of_getElem? hcaller]
    have hlt : i < p.callers.length := (List.getElem?_eq_some_iff.mp hcaller).1
    obtain ⟨rest, held⟩ := caller
    cases rest with
    | done a =>
      have hstill : p.callers.set i ⟨.done a, held⟩ = p.callers := by
        rw [← (List.getElem?_eq_some_iff.mp hcaller).2, List.set_getElem_self]
      refine ⟨ht, fun j hj => ?_⟩
      rwa [Holds, Caller.act, hstill] at hj
    | perform e next =>
      have hheld : (c, id) ∉ held := fun hmem => hfree ⟨_, hcaller, rfl, hmem⟩
      cases hrest with
      | perform he _ =>
        obtain ⟨hrecord, hafter⟩ := he.perform_of_isFinal env ht hfinal hheld
        refine ⟨hrecord, ?_⟩
        rintro j ⟨other, hother, hbusy, hmem⟩
        by_cases hj : i = j
        · subst hj
          rw [List.getElem?_set_self hlt] at hother
          obtain rfl := Option.some.inj hother
          exact absurd hmem hafter
        · rw [List.getElem?_set_ne hj] at hother
          exact ⟨other, hother, hbusy, hmem⟩

theorem Careful.get?_after (hp : p.Careful) {c : Nat} {id : String} {t : Task}
    (ht : p.world.tasks.get? c id = some t) (hfinal : t.isFinal = true) {schedule : List Nat}
    (hfree : ∀ i ∈ schedule, ¬ p.Holds i (c, id)) :
    (p.after env schedule).world.tasks.get? c id = some t := by
  induction schedule generalizing p with
  | nil => exact ht
  | cons i schedule ih =>
    obtain ⟨hrecord, hholds⟩ := hp.turn_of_isFinal ht hfinal (hfree i List.mem_cons_self)
    refine ih (hp.turn env i) hrecord fun j hj hheld => ?_
    exact hfree j (List.mem_cons_of_mem _ hj) (hholds j hheld)

end Pool

namespace Gateway

variable (g : Gateway)

/-- Something that is done about tasks that were accepted. -/
inductive Errand where
  | poll (channelId : Nat) (taskId : String) (cancelled : Bool) (now : Instant)
  | expire (asOf : Instant) (timeout : Int) (now : Instant)

/-- The program of an errand, whose result only its caller is told. -/
def Errand.program : Errand → Program Unit
  | .poll channelId taskId cancelled now =>
    (g.poll channelId taskId cancelled now).run >>= fun _ => pure ()
  | .expire asOf timeout now => (Gateway.expire asOf timeout now).run >>= fun _ => pure ()

/-- The calls of some errands, none of which has begun. -/
def pool (errands : List Errand) (w : World σ) : Pool σ :=
  ⟨errands.map fun errand => ⟨errand.program g, []⟩, w⟩

theorem keep_careful {held : List TaskKey} {t : Task} (h : t.key ∈ held) :
    (keep t).run.Careful held := by
  refine .perform h fun answer => ?_
  cases answer <;> exact .done

theorem follow_careful {t : Task} {held : List TaskKey} (h : t.key ∈ held) (cancelled : Bool)
    (now : Instant) : (g.follow t cancelled now).run.Careful held := by
  unfold follow
  refine Attempt.careful_bind (g.report_ensures t cancelled (fun _ _ _ _ => trivial)
    (fun _ _ _ _ _ => trivial)) fun r _ => ?_
  obtain ⟨outcome, data⟩ := r
  dsimp only
  cases hadvance : t.advance? outcome data now with
  | none => exact .done
  | some t' =>
    obtain ⟨-, -, rfl⟩ := Task.advance?_eq_some_iff.mp hadvance
    have hcopy := g.withCopy_key_ensures (P := Effect.Quiet) (t.advanced outcome data now) now
      (fun _ => trivial) (fun _ => trivial) fun _ => trivial
    refine Attempt.careful_bind (.lift hcopy) fun u hu => ?_
    -- Neither the outcome nor a copy moves the task to another place.
    exact keep_careful (hu ▸ h)

theorem poll_careful (c : Nat) (id : String) (cancelled : Bool) (now : Instant) :
    (g.poll c id cancelled now).run.Careful [] := by
  unfold poll
  rw [Attempt.run_effect_bind]
  refine .perform trivial fun answer => ?_
  cases answer with
  | none => exact .done
  | some t =>
    dsimp only
    by_cases hfinal : t.isFinal = true
    · rw [if_pos hfinal]
      exact .done
    · have hheld : Effect.heldAfter [] (.getTask c id) (some t) = [t.key] := by
        simp [Effect.heldAfter, hfinal]
      rw [if_neg hfinal, hheld]
      exact g.follow_careful List.mem_cons_self cancelled now

theorem expireAll_careful (asOf : Instant) (timeout : Int) (now : Instant) {ts : List Task}
    {held : List TaskKey} (h : (ts.map Task.key).Subperm held) :
    (expireAll asOf timeout now ts).run.Careful held := by
  -- Over the tasks that were read; those still to come are held, each as often as it is listed.
  induction ts generalizing held with
  | nil => exact .done
  | cons t ts ih =>
    have htail : (ts.map Task.key).Subperm held := (List.sublist_cons_self _ _).subperm.trans h
    unfold expireAll
    split
    · exact ih htail
    · cases hadvance : t.advance? timedOut t.data now with
      | none => exact ih htail
      | some t' =>
        obtain ⟨-, -, rfl⟩ := Task.advance?_eq_some_iff.mp hadvance
        have hkey : t.key ∈ held := h.subset List.mem_cons_self
        have herase : (ts.map Task.key).Subperm (held.erase t.key) := by
          have hboth := h.erase t.key
          rwa [List.map_cons, List.erase_cons_head] at hboth
        refine .perform hkey fun answer => ?_
        cases answer with
        | error e => exact .done
        | ok _ =>
          refine (ih herase).bind fun r held' => ?_
          cases r <;> exact .done

theorem expire_careful (asOf : Instant) (timeout : Int) (now : Instant) :
    (Gateway.expire asOf timeout now).run.Careful [] := by
  unfold Gateway.expire
  rw [Attempt.run_effect_bind]
  refine .perform trivial fun ts => ?_
  exact expireAll_careful asOf timeout now (List.sublist_append_left _ _).subperm

theorem pool_careful (errands : List Errand) (w : World σ) : (g.pool errands w).Careful := by
  intro caller hcaller
  obtain ⟨errand, -, rfl⟩ := List.mem_map.mp hcaller
  cases errand with
  | poll c id cancelled now => exact (g.poll_careful c id cancelled now).bind fun _ _ => .done
  | expire asOf timeout now => exact (expire_careful asOf timeout now).bind fun _ _ => .done

/-- Once a record is finished, only a call that holds the task at that moment can
change it: one that read the task unfinished and has not written it since. -/
theorem finished_record_kept (env : Surroundings σ) (errands : List Errand) (w : World σ)
    {schedule more : List Nat} {c : Nat} {id : String} {t : Task}
    (ht : ((g.pool errands w).after env schedule).world.tasks.get? c id = some t)
    (hfinal : t.isFinal = true)
    (hfree : ∀ i ∈ more, ¬ ((g.pool errands w).after env schedule).Holds i (c, id)) :
    ((g.pool errands w).after env (schedule ++ more)).world.tasks.get? c id = some t := by
  rw [Pool.after_append]
  exact ((g.pool_careful errands w).after env schedule).get?_after ht hfinal hfree

def twoPolls : List Errand :=
  [.poll 7 "t1" false ⟨1⟩, .poll 7 "t1" false ⟨2⟩]

/-- The second poll finishes the task before the first one begins. -/
theorem finished_record_kept_twoPolls : ∃ t,
    ((sample.pool twoPolls sampleRun.2).after sampleSurroundings [1, 1, 1]).world.tasks.get? 7 "t1"
      = some t ∧ t.status = .success ∧
    ((sample.pool twoPolls sampleRun.2).after sampleSurroundings
      ([1, 1, 1] ++ [0, 0, 0])).world.tasks.get? 7 "t1" = some t := by
  have hstatus : (((sample.pool twoPolls sampleRun.2).after sampleSurroundings
      [1, 1, 1]).world.tasks.get? 7 "t1").map (·.status) = some .success := by
    decide +kernel
  obtain ⟨t, ht, hsuccess⟩ := Option.map_eq_some_iff.mp hstatus
  refine ⟨t, ht, hsuccess, finished_record_kept sample _ _ _ ht ?_ ?_⟩
  · simp [Task.isFinal, hsuccess, TaskStatus.isFinal]
  · rintro i hi ⟨caller, hcaller, -, hheld⟩
    obtain rfl : i = 0 := by simpa using hi
    rw [Pool.getElem?_after_of_notMem (by decide)] at hcaller
    obtain rfl := Option.some.inj hcaller
    cases hheld

/-- Surroundings in which the vendor tells the first poll that the video is being
made, and from then on that it is finished. -/
def slowSurroundings : Surroundings Nat where
  reply _ calls :=
    (.ok ⟨.ok, [], Text.Utf8.encode (if calls = 1 then making else
      sampleSurroundings.sampleAnswer), true⟩, calls + 1)
  refuses _ calls := (false, calls)
where
  making := "\x7b\"id\":\"t1\",\"status\":\"running\"\x7d"

/-- The world after the request of the task was accepted. -/
def slowStart : World Nat :=
  ((sample.submit Request.sample false ⟨0⟩).run.run slowSurroundings (.fresh .starter 0)).2

/-- The first poll reads the task and is told that the video is being made, the
second poll finishes the task, and then the first one writes what it was told. -/
theorem overlapping_poll_undoes_success :
    (((sample.pool twoPolls slowStart).after slowSurroundings
      [0, 0, 1, 1, 1]).world.tasks.get? 7 "t1").map (·.status) = some .success ∧
    (((sample.pool twoPolls slowStart).after slowSurroundings
      ([0, 0, 1, 1, 1] ++ [0])).world.tasks.get? 7 "t1").map (·.status) = some .inProgress := by
  decide +kernel

end Gateway

end VideoGateway

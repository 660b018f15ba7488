import VideoGateway.Proofs.Gateway.SingleTask

/-!
# What becomes of the record that a program tends

A program tends a record when it writes no other one. What it does then depends
on this record and on the answers to its calls, so a condition on its events, on
its result and on the record that it leaves can be taken backwards through the
program. The condition holds when the program runs alone, and it holds when
programs that tend other records run at the same time.
-/
namespace VideoGateway

namespace TaskStore

variable {s : TaskStore} {t t' : Task}

theorem eq_of_records {s s' : TaskStore} (h : s.records = s'.records) : s = s' := by
  obtain ⟨records, owners, _, howned, _⟩ := s
  obtain ⟨records', owners', _, howned', _⟩ := s'
  obtain rfl : records = records' := h
  obtain rfl : owners = owners' := howned.trans howned'.symm
  rfl

theorem replace_self (h : s.get? t.channelId t.id = some t) : s.replace t = s := by
  apply eq_of_records
  conv_rhs => rw [← List.map_id s.records]
  apply List.map_congr_left
  intro r hr
  split
  · next hkey =>
    have hget : s.get? t.channelId t.id = some r.2 := by
      rw [get?_eq_some_iff]
      exact (show r = ((t.channelId, t.id), r.2) from Prod.ext hkey rfl) ▸ hr
    obtain rfl : t = r.2 := Option.some.inj (h.symm.trans hget)
    exact Prod.ext hkey.symm rfl
  · rfl

theorem replace_replace (h : t'.key = t.key) : (s.replace t).replace t' = s.replace t' := by
  apply eq_of_records
  simp only [replace, List.map_map]
  apply List.map_congr_left
  intro r _
  by_cases hkey : r.1 = t.key
  · simp [hkey, h]
  · simp [hkey, h]

theorem get?_replace_of_key (h : s.get? t.channelId t.id = some t) (hkey : t'.key = t.key) :
    (s.replace t').get? t'.channelId t'.id = some t' := by
  exact get?_replace_self ((s.get?_of_key_eq hkey).trans h) rfl

theorem replace_keys (s : TaskStore) (t : Task) :
    (s.replace t).records.map Prod.fst = s.records.map Prod.fst := by
  simp only [replace, List.map_map]
  apply List.map_congr_left
  intro r _
  by_cases hkey : r.1 = t.key
  · simp [hkey]
  · simp [hkey]

end TaskStore

variable {σ α β ε : Type} {env : Surroundings σ} {w w' : World σ} {t : Task}

namespace Effect

variable {e : Effect}

def events : Effect → List Event
  | .call c => [.called c]
  | .wait ms => [.waited ms]
  | _ => []

theorem perform_events (env : Surroundings σ) (w : World σ) (e : Effect) :
    (e.perform env w).2.events = w.events ++ e.events := by
  cases e with
  | call c | wait ms => rfl
  | insertTask t =>
    simp only [perform, World.store]
    split <;> exact (List.append_nil _).symm
  | updateTask t =>
    simp only [perform, World.store]
    split <;> exact (List.append_nil _).symm
  | bucket op =>
    simp only [perform]
    split <;> exact (List.append_nil _).symm
  | _ => exact (List.append_nil _).symm

/-- The effect writes no record, or one in the place of `t`. -/
def Tends (t : Task) : Effect → Prop
  | .insertTask _ => False
  | .updateTask u => u.key = t.key
  | _ => True

/-- The record that stands in the place of `t` after the effect. -/
def recordAfter (t : Task) : Effect → Task
  | .updateTask u => u
  | _ => t

/-- Where `t` is in the store, the effect may have this answer. -/
def MayAnswer (env : Surroundings σ) (t : Task) : (e : Effect) → e.Answer → Prop
  | .call c, reply => ∃ outside, reply = (env.reply c outside).1
  | .getTask c id, found => (c, id) = t.key → found = some t
  | .updateTask _, answer => answer = .ok ()
  | _, _ => True

theorem KeepsTasks.tends (h : e.KeepsTasks) (t : Task) : e.Tends t := by
  cases e with
  | insertTask u | updateTask u => exact h.elim
  | _ => trivial

theorem KeepsTasks.recordAfter_eq (h : e.KeepsTasks) (t : Task) : e.recordAfter t = t := by
  cases e with
  | updateTask u => exact h.elim
  | _ => rfl

theorem Tends.recordAfter_key (h : e.Tends t) : (e.recordAfter t).key = t.key := by
  cases e with
  | updateTask u => exact h
  | _ => rfl

theorem Tends.perform_updateTask {u : Task} (h : (updateTask u).Tends t) (env : Surroundings σ)
    (ht : w.tasks.get? t.channelId t.id = some t) :
    Effect.perform env w (.updateTask u) = (.ok (), { w with tasks := w.tasks.replace u }) :=
  Effect.perform_updateTask env ((w.tasks.get?_of_key_eq h).trans ht)

theorem Tends.mayAnswer (h : e.Tends t) (env : Surroundings σ)
    (ht : w.tasks.get? t.channelId t.id = some t) : e.MayAnswer env t (e.perform env w).1 := by
  cases e with
  | call c => exact ⟨w.outside, rfl⟩
  | getTask c id =>
    rintro ⟨⟩
    exact ht
  | updateTask u =>
    rw [h.perform_updateTask env ht]
    rfl
  | _ => trivial

theorem Tends.perform_tasks (h : e.Tends t) (env : Surroundings σ)
    (ht : w.tasks.get? t.channelId t.id = some t) :
    (e.perform env w).2.tasks = w.tasks.replace (e.recordAfter t) := by
  rcases e.keepsTasks_or with hkeeps | ⟨u, rfl⟩ | ⟨u, rfl⟩
  · rw [hkeeps.recordAfter_eq t, TaskStore.replace_self ht, hkeeps.perform_tasks env w]
  · exact h.elim
  · rw [h.perform_updateTask env ht]
    rfl

end Effect

/-- A condition on the events of a program, on its result, and on the record that
it leaves. -/
abbrev Ending (α : Type) := List Event → α → Task → Prop

namespace Program

variable {p : Program α} {Q : Ending α}

/-- The program tends `t`, and the condition holds in the end. -/
inductive Tends (env : Surroundings σ) : Program α → Task → Ending α → Prop
  | done {a : α} {t : Task} {Q : Ending α} : Q [] a t → Tends env (.done a) t Q
  | perform {e : Effect} {next : e.Answer → Program α} {t : Task} {Q : Ending α} :
      e.Tends t → (∀ answer, e.MayAnswer env t answer →
        Tends env (next answer) (e.recordAfter t) fun es => Q (e.events ++ es)) →
      Tends env (.perform e next) t Q

theorem Tends.mono {R : Ending α} (h : p.Tends env t Q) (hQ : ∀ es a u, Q es a u → R es a u) :
    p.Tends env t R := by
  induction h generalizing R with
  | done h => exact .done (hQ _ _ _ h)
  | @perform e next t Q he _ ih =>
    apply Tends.perform he
    intro answer hanswer
    exact ih answer hanswer fun es => hQ (e.events ++ es)

theorem Tends.bind {f : α → Program β} {R : Ending β} (h : p.Tends env t Q)
    (hf : ∀ es a u, Q es a u → (f a).Tends env u fun es' => R (es ++ es')) :
    (p >>= f).Tends env t R := by
  induction h generalizing R with
  | done h => exact hf _ _ _ h
  | @perform e next t Q he _ ih =>
    apply Tends.perform he
    intro answer hanswer
    apply ih answer hanswer
    intro es a u hQ
    have hrest := hf (e.events ++ es) a u hQ
    simpa only [List.append_assoc] using hrest

theorem Tends.map {f : α → β} {R : Ending β} (h : p.Tends env t fun es a u => R es (f a) u) :
    (f <$> p).Tends env t R := by
  rw [← bind_pure_comp]
  apply h.bind
  intro es a u hR
  apply Tends.done
  rw [List.append_nil]
  exact hR

/-- A program that leaves the store alone tends every record, and its events come
from its effects. -/
theorem Tends.of_ensures {P : Effect → Prop} {Q : α → Prop} (h : p.Ensures P Q)
    (hP : ∀ e, P e → e.KeepsTasks) (env : Surroundings σ) (t : Task) :
    p.Tends env t fun es a u => u = t ∧ Q a ∧ ∀ event ∈ es, ∃ e, P e ∧ event ∈ e.events := by
  induction h with
  | done ha => exact .done ⟨rfl, ha, fun _ hevent => nomatch hevent⟩
  | @perform e next he _ ih =>
    apply Tends.perform ((hP e he).tends t)
    intro answer _
    rw [(hP e he).recordAfter_eq]
    apply (ih answer).mono
    rintro es a u ⟨hu, ha, hes⟩
    refine ⟨hu, ha, fun event hevent => ?_⟩
    rcases List.mem_append.mp hevent with hown | hlater
    · exact ⟨e, he, hown⟩
    · exact hes event hlater

/-- One effect of a program that tends a record of the store: at most this record is
replaced, and the program goes on to tend what stands in its place. -/
theorem Tends.performed {e : Effect} {next : e.Answer → Program α}
    (h : (Program.perform e next).Tends env t Q) (ht : w.tasks.get? t.channelId t.id = some t) :
    ∃ u, u.key = t.key ∧ (e.perform env w).2.tasks = w.tasks.replace u ∧
      (w.tasks.replace u).get? u.channelId u.id = some u ∧ u = e.recordAfter t ∧
      (next (e.perform env w).1).Tends env u fun es => Q (e.events ++ es) := by
  cases h with
  | perform heffect hnext =>
    have hkey := heffect.recordAfter_key
    exact ⟨_, hkey, heffect.perform_tasks env ht, TaskStore.get?_replace_of_key ht hkey, rfl,
      hnext _ (heffect.mayAnswer env ht)⟩

/-- A program that tends a record of the store runs to an end at which the condition
holds, and it has replaced this record and nothing else. -/
theorem Tends.run (h : p.Tends env t Q) (ht : w.tasks.get? t.channelId t.id = some t) :
    ∃ es u, Q es (p.run env w).1 u ∧ u.key = t.key ∧
      (p.run env w).2.events = w.events ++ es ∧
      (p.run env w).2.tasks = w.tasks.replace u := by
  induction p generalizing t w Q with
  | done a =>
    cases h with
    | done h =>
      exact ⟨[], t, h, rfl, (List.append_nil _).symm, (TaskStore.replace_self ht).symm⟩
  | perform e next ih =>
    obtain ⟨v, hv, htasks, hplace, -, hnext⟩ := h.performed ht
    rw [← htasks] at hplace
    obtain ⟨es, u, hQ, hu, hevents, hstore⟩ := ih _ hnext hplace
    refine ⟨e.events ++ es, u, hQ, hu.trans hv, ?_, ?_⟩
    · rw [run_perform, hevents, Effect.perform_events, List.append_assoc]
    · rw [run_perform, hstore, htasks, TaskStore.replace_replace hu]

end Program

/-- What is left of a program, the record that stands in the place of its task, and
the condition that is to hold in the end. -/
structure Tending (α : Type) where
  program : Program α
  record : Task
  ending : Ending α

/-- The record stands in the place of the task, and the program tends it. -/
structure Tending.Holds (v : Tending α) (env : Surroundings σ) (s : TaskStore) (t : Task) :
    Prop where
  key : v.record.key = t.key
  stored : s.get? v.record.channelId v.record.id = some v.record
  tends : v.program.Tends env v.record v.ending

theorem Tending.Holds.get? {v : Tending α} {s : TaskStore} (h : v.Holds env s t) :
    s.get? t.channelId t.id = some v.record := by
  rw [← s.get?_of_key_eq h.key]
  exact h.stored

def Tending.after (v : Tending α) (e : Effect) (rest : Program α) : Tending α :=
  ⟨rest, e.recordAfter v.record, fun es => v.ending (e.events ++ es)⟩

/-- The effect of a program that tends a record replaces this record at most, and
leaves the program to tend what stands in its place. -/
theorem Tending.Holds.perform {v : Tending α} {e : Effect} {next : e.Answer → Program α}
    (h : v.Holds env w.tasks t) (hprogram : v.program = .perform e next) :
    ∃ r, r.key = t.key ∧ (e.perform env w).2.tasks = w.tasks.replace r ∧
      (v.after e (next (e.perform env w).1)).Holds env (w.tasks.replace r) t := by
  obtain ⟨hkey, hstored, htends⟩ := h
  rw [hprogram] at htends
  obtain ⟨r, hr, htasks, hplace, rfl, hnext⟩ := htends.performed hstored
  exact ⟨_, hr.trans hkey, htasks, hr.trans hkey, hplace, hnext⟩

open Classical in
theorem Tending.holds_update {ts : List Task} {v : Task → Tending α} {x : Tending α}
    {s : TaskStore} {r : Task} (hkeys : (ts.map Task.key).Nodup)
    (hv : ∀ u ∈ ts, (v u).Holds env s u) (ht : t ∈ ts) (hr : r.key = t.key)
    (hx : x.Holds env (s.replace r) t) :
    ∀ u ∈ ts, (Function.update v t x u).Holds env (s.replace r) u := by
  intro u hu
  by_cases heq : u = t
  · subst heq
    rw [Function.update_self]
    exact hx
  · obtain ⟨hkey, hstored, htends⟩ := hv u hu
    have hne : (v u).record.key ≠ r.key := by
      rw [hkey, hr]
      exact fun h => heq (List.inj_on_of_nodup_map hkeys hu ht h)
    rw [Function.update_of_ne heq]
    refine ⟨hkey, ?_, htends⟩
    rw [TaskStore.get?_replace_of_ne hne]
    exact hstored

open Classical in
theorem Tending.map_update {before after : List Task} (hbefore : t ∉ before) (hafter : t ∉ after)
    (v : Task → Tending α) (x : Tending α) :
    (before ++ t :: after).map (fun u => (Function.update v t x u).program) =
      before.map (fun u => (v u).program) ++ x.program :: after.map fun u => (v u).program := by
  have hsame {us : List Task} (hus : t ∉ us) :
      us.map (fun u => (Function.update v t x u).program) = us.map fun u => (v u).program := by
    apply List.map_congr_left
    intro u hu
    rw [Function.update_of_ne (fun heq : u = t => hus (heq ▸ hu))]
  rw [List.map_append, List.map_cons, Function.update_self, hsame hbefore, hsame hafter]

/-- Between two worlds some tasks were visited: the store has the records that the
visits left and is otherwise unchanged, and the events that are new are those of the
visits, in some order. -/
structure Visited (ts : List Task) (sent : Task → List Event) (left : Task → Task)
    (w w' : World σ) : Prop where
  left : ∀ t ∈ ts, w'.tasks.get? t.channelId t.id = some (left t)
  others : ∀ c id, (c, id) ∉ ts.map Task.key → w'.tasks.get? c id = w.tasks.get? c id
  keys : w'.tasks.records.map Prod.fst = w.tasks.records.map Prod.fst
  events : ∃ es, w'.events = w.events ++ es ∧ es.Perm (ts.flatMap sent)

theorem Visited.refl {ts : List Task} {left : Task → Task}
    (h : ∀ t ∈ ts, w.tasks.get? t.channelId t.id = some (left t)) :
    Visited ts (fun _ => []) left w w :=
  ⟨h, fun _ _ _ => rfl, rfl, [], (List.append_nil _).symm, by simp⟩

theorem Visited.congr {ts : List Task} {sent sent' : Task → List Event} {left : Task → Task}
    (h : Visited ts sent left w w') (hsent : ∀ t ∈ ts, sent t = sent' t) :
    Visited ts sent' left w w' := by
  refine ⟨h.left, h.others, h.keys, ?_⟩
  rw [← List.flatMap_congr hsent]
  exact h.events

open Classical in
theorem perm_flatMap_update {ts : List Task} (hts : ts.Nodup) (ht : t ∈ ts) (es : List Event)
    (sent : Task → List Event) :
    (es ++ ts.flatMap sent).Perm (ts.flatMap (Function.update sent t (es ++ sent t))) := by
  induction ts with
  | nil => cases ht
  | cons u ts ih =>
    obtain ⟨hfresh, hts⟩ := List.nodup_cons.mp hts
    rw [List.flatMap_cons, List.flatMap_cons]
    by_cases hu : u = t
    · subst hu
      have hrest : ts.flatMap (Function.update sent u (es ++ sent u)) = ts.flatMap sent := by
        apply List.flatMap_congr
        intro v hv
        rw [Function.update_of_ne (fun heq : v = u => hfresh (heq ▸ hv))]
      rw [Function.update_self, hrest, List.append_assoc]
    · have ht : t ∈ ts := (List.mem_cons.mp ht).resolve_left (Ne.symm hu)
      rw [Function.update_of_ne hu]
      exact (List.perm_append_comm_assoc _ _ _).trans ((ih hts ht).append_left _)

open Classical in
/-- An effect at one of the tasks may come before the visits. -/
theorem Visited.after_effect {ts : List Task} {sent : Task → List Event} {left : Task → Task}
    {e : Effect} {r : Task} (h : Visited ts sent left (e.perform env w).2 w')
    (hts : ts.Nodup) (ht : t ∈ ts) (hr : r.key = t.key)
    (htasks : (e.perform env w).2.tasks = w.tasks.replace r) :
    Visited ts (Function.update sent t (e.events ++ sent t)) left w w' where
  left := h.left
  others c id hother := by
    have hne : (c, id) ≠ r.key := by
      intro heq
      exact hother (heq ▸ hr ▸ List.mem_map_of_mem ht)
    rw [h.others c id hother, htasks, TaskStore.get?_replace_of_ne hne]
  keys := by rw [h.keys, htasks, TaskStore.replace_keys]
  events := by
    obtain ⟨es, hevents, hperm⟩ := h.events
    refine ⟨e.events ++ es, ?_, ?_⟩
    · rw [hevents, Effect.perform_events, List.append_assoc]
    · exact (hperm.append_left e.events).trans (perm_flatMap_update hts ht e.events sent)

namespace Program

open Classical in
/-- Programs that tend different records may run at the same time: each comes to an
end at which its condition holds, as if it ran alone. -/
theorem Interleaves.visited {ts : List Task} {v : Task → Tending α}
    (h : Interleaves env (ts.map fun t => (v t).program) w w') (hkeys : (ts.map Task.key).Nodup)
    (hv : ∀ t ∈ ts, (v t).Holds env w.tasks t) :
    ∃ sent left, Visited ts sent left w w' ∧
      ∀ t ∈ ts, ∃ a, (v t).ending (sent t) a (left t) := by
  generalize hps : (ts.map fun t => (v t).program) = ps at h
  induction h generalizing v with
  | finished hdone =>
    refine ⟨fun _ => [], fun t => (v t).record, .refl fun t ht => (hv t ht).get?, fun t ht => ?_⟩
    obtain ⟨a, ha⟩ := hdone _ (hps ▸ List.mem_map_of_mem ht)
    have htends := (hv t ht).tends
    rw [ha] at htends
    cases htends with
    | done hends => exact ⟨a, hends⟩
  | @step before after e next w w' _ ih =>
    -- The task of the program that acts; the programs of the other tasks stand still.
    obtain ⟨tsBefore, rest, rfl, rfl, hrest⟩ := List.map_eq_append_iff.mp hps
    obtain ⟨t, tsAfter, rfl, hprogram, rfl⟩ := List.map_eq_cons_iff.mp hrest
    have ht : t ∈ tsBefore ++ t :: tsAfter := by simp
    have hnodup : (tsBefore ++ t :: tsAfter).Nodup := hkeys.of_map _
    obtain ⟨hfresh, -⟩ := List.nodup_cons.mp (List.nodup_middle.mp hnodup)
    rw [List.mem_append, not_or] at hfresh
    obtain ⟨r, hr, htasks, hafter⟩ := (hv t ht).perform hprogram
    have hholds := Tending.holds_update hkeys hv ht hr hafter
    rw [← htasks] at hholds
    obtain ⟨sent, left, hvisited, hends⟩ :=
      ih hholds (Tending.map_update hfresh.1 hfresh.2 v _)
    refine ⟨Function.update sent t (e.events ++ sent t), left,
      hvisited.after_effect hnodup ht hr htasks, fun u hu => ?_⟩
    obtain ⟨a, ha⟩ := hends u hu
    by_cases heq : u = t
    · subst heq
      rw [Function.update_self] at ha ⊢
      exact ⟨a, ha⟩
    · rw [Function.update_of_ne heq] at ha ⊢
      exact ⟨a, ha⟩

theorem Interleaves.visited_of_tends {ts : List Task} {prog : Task → Program α}
    {ending : Task → Ending α} (h : Interleaves env (ts.map prog) w w')
    (hkeys : (ts.map Task.key).Nodup)
    (hstored : ∀ t ∈ ts, w.tasks.get? t.channelId t.id = some t)
    (htends : ∀ t ∈ ts, (prog t).Tends env t (ending t)) :
    ∃ sent left, Visited ts sent left w w' ∧ ∀ t ∈ ts, ∃ a, ending t (sent t) a (left t) := by
  let v (t : Task) : Tending α := ⟨prog t, t, ending t⟩
  have hholds : ∀ t ∈ ts, (v t).Holds env w.tasks t := fun t ht =>
    ⟨rfl, hstored t ht, htends t ht⟩
  exact Interleaves.visited h hkeys hholds

/-- The order in which the programs are listed does not matter. -/
theorem Interleaves.perm {ps qs : List (Program α)} (h : Interleaves env ps w w')
    (hqs : qs.Perm ps) : Interleaves env qs w w' := by
  induction h generalizing qs with
  | finished hdone => exact .finished fun p hp => hdone p (hqs.subset hp)
  | @step before after e next w w' _ ih =>
    have hmem : Program.perform e next ∈ qs := hqs.symm.subset (by simp)
    obtain ⟨before', after', rfl⟩ := List.append_of_mem hmem
    have hrest : (before' ++ after').Perm (before ++ after) :=
      (List.perm_middle.symm.trans (hqs.trans List.perm_middle)).cons_inv
    refine .step before' after' (ih ?_)
    exact List.perm_middle.trans ((hrest.cons _).trans List.perm_middle.symm)

end Program

theorem Attempt.tends_bind {a : Attempt ε α} {f : α → Attempt ε β} {Q : Ending (Except ε α)}
    {R : Ending (Except ε β)} (h : a.run.Tends env t Q)
    (herror : ∀ es e u, Q es (.error e) u → R es (.error e) u)
    (hok : ∀ es x u, Q es (.ok x) u → (f x).run.Tends env u fun es' => R (es ++ es')) :
    (a >>= f).run.Tends env t R := by
  apply Program.Tends.bind h
  intro es r u hQ
  cases r with
  | error e =>
    apply Program.Tends.done
    rw [List.append_nil]
    exact herror es e u hQ
  | ok x => exact hok es x u hQ

end VideoGateway

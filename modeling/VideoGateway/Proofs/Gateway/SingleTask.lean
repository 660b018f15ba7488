import VideoGateway.Proofs.Gateway.Effects
import VideoGateway.Proofs.Task.Lifecycle
import VideoGateway.Proofs.Task.Store

/-!
# Programs that mind one task

A store evolves when every record in it is followed by a later one. A program
settles a task when all it does to the store is to look this task up and, at
most once, to put a later record of the right shape in its place. Programs that
settle different tasks may run at the same time, in any order of their effects:
the store evolves, and no record is new.
-/
namespace VideoGateway

namespace TaskStore

/-- Every record is followed by a later one. -/
def Evolves (s s' : TaskStore) : Prop :=
  ∀ c id t, s.get? c id = some t → ∃ t', s'.get? c id = some t' ∧ t.Evolves t'

def WellShaped (s : TaskStore) : Prop :=
  ∀ c id t, s.get? c id = some t → t.WellShaped

/-- Records of the right shape follow records, and none is new. -/
structure Settles (s s' : TaskStore) : Prop where
  evolves : s.Evolves s'
  wellShaped : s.WellShaped → s'.WellShaped
  nothingNew : ∀ c id, s.get? c id = none → s'.get? c id = none

theorem Evolves.refl (s : TaskStore) : s.Evolves s :=
  fun _ _ t ht => ⟨t, ht, .refl t⟩

theorem Evolves.trans {r s t : TaskStore} (hrs : r.Evolves s) (hst : s.Evolves t) :
    r.Evolves t := by
  intro c id u hu
  obtain ⟨u', hu', hle⟩ := hrs c id u hu
  obtain ⟨u'', hu'', hle'⟩ := hst c id u' hu'
  exact ⟨u'', hu'', hle.trans hle'⟩

theorem Settles.refl (s : TaskStore) : s.Settles s :=
  ⟨.refl s, fun h => h, fun _ _ h => h⟩

theorem Settles.of_eq {s s' : TaskStore} (h : s' = s) : s.Settles s' :=
  h ▸ .refl s

theorem Settles.trans {r s t : TaskStore} (hrs : r.Settles s) (hst : s.Settles t) :
    r.Settles t where
  evolves := hrs.evolves.trans hst.evolves
  wellShaped h := hst.wellShaped (hrs.wellShaped h)
  nothingNew c id h := hst.nothingNew c id (hrs.nothingNew c id h)

theorem replace_settles {s : TaskStore} {t t' : Task}
    (ht : s.get? t.channelId t.id = some t) (hle : t.Evolves t') (hshape : t'.WellShaped) :
    s.Settles (s.replace t') := by
  have hself : (s.replace t').get? t.channelId t.id = some t' := get?_replace_self ht hle.key
  refine ⟨?_, ?_, ?_⟩
  · intro c id u hu
    by_cases hk : (c, id) = t.key
    · obtain ⟨rfl, rfl⟩ := Prod.mk.inj hk
      obtain rfl : t = u := Option.some.inj (ht.symm.trans hu)
      exact ⟨t', hself, hle⟩
    · rw [← hle.key] at hk
      exact ⟨u, by rw [get?_replace_of_ne hk, hu], .refl u⟩
  · intro hs c id u hu
    by_cases hk : (c, id) = t.key
    · obtain ⟨rfl, rfl⟩ := Prod.mk.inj hk
      exact Option.some.inj (hself.symm.trans hu) ▸ hshape
    · rw [← hle.key] at hk
      rw [get?_replace_of_ne hk] at hu
      exact hs c id u hu
  · intro c id hnone
    rw [get?_replace, hnone]
    simp

end TaskStore

variable {σ α β ε : Type} {Q : α → Prop}

namespace Program

/-- All that the program does to the store is to look up a task, which it finds
to be `t`, and to put one later record of the right shape in its place. -/
inductive Settles (t : Task) : Program α → Prop
  | rest {p : Program α} : p.Ensures Effect.KeepsTasks (fun _ => True) → Settles t p
  | look {next : Option Task → Program α} :
      Settles t (next (some t)) → Settles t (.perform (.getTask t.channelId t.id) next)
  | step {e : Effect} {next : e.Answer → Program α} :
      e.KeepsTasks → (∀ answer, Settles t (next answer)) → Settles t (.perform e next)
  | replace {t' : Task} {next : Except StoreError Unit → Program α} :
      t.Evolves t' → t'.WellShaped →
      (∀ answer, (next answer).Ensures Effect.KeepsTasks fun _ => True) →
      Settles t (.perform (.updateTask t') next)

theorem Settles.bind {t : Task} {p : Program α} {f : α → Program β}
    (hp : p.Ensures Effect.KeepsTasks Q) (hf : ∀ a, Q a → (f a).Settles t) :
    (p >>= f).Settles t := by
  induction hp with
  | done ha => exact hf _ ha
  | perform he _ ih => exact .step he ih

/-- Some order of the effects of programs that run at the same time leads from
one world to another. -/
inductive Interleaves (env : Surroundings σ) : List (Program α) → World σ → World σ → Prop
  | finished {ps : List (Program α)} {w : World σ} :
      (∀ p ∈ ps, ∃ a, p = .done a) → Interleaves env ps w w
  | step (before after : List (Program α)) {e : Effect} {next : e.Answer → Program α}
      {w w' : World σ} :
      Interleaves env (before ++ next (e.perform env w).1 :: after) (e.perform env w).2 w' →
      Interleaves env (before ++ .perform e next :: after) w w'

theorem Interleaves.cons_done {env : Surroundings σ} {ps : List (Program α)} {w w' : World σ}
    (h : Interleaves env ps w w') (a : α) : Interleaves env (.done a :: ps) w w' := by
  induction h with
  | finished hps =>
    refine .finished fun p hp => ?_
    rcases List.mem_cons.mp hp with rfl | hp
    · exact ⟨a, rfl⟩
    · exact hps p hp
  | step before after _ ih => exact .step (.done a :: before) after ih

theorem Interleaves.cons_run {env : Surroundings σ} {p : Program α} {ps : List (Program α)}
    {w w' : World σ} (h : Interleaves env ps (p.run env w).2 w') :
    Interleaves env (p :: ps) w w' := by
  induction p generalizing w with
  | done a => exact h.cons_done a
  | perform e next ih => exact .step [] ps (ih _ h)

/-- A running program is about to settle a task of the store, or leaves the store
alone from now on. -/
def Minds (s : TaskStore) (t : Task) (p : Program α) : Prop :=
  s.get? t.channelId t.id = some t ∧ p.Settles t ∨
    p.Ensures Effect.KeepsTasks fun _ => True

/-- One effect of a program that minds a task: the store settles, the program
goes on to mind the task, and the other tasks are as they were. -/
theorem Minds.perform {s : TaskStore} {t : Task} {e : Effect} {next : e.Answer → Program α}
    (env : Surroundings σ) {w : World σ} (hs : w.tasks = s)
    (h : Minds s t (.perform e next)) :
    s.Settles (e.perform env w).2.tasks ∧
      Minds (e.perform env w).2.tasks t (next (e.perform env w).1) ∧
      ∀ u : Task, u.key ≠ t.key →
        (e.perform env w).2.tasks.get? u.channelId u.id = s.get? u.channelId u.id := by
  subst hs
  have quiet {e : Effect} {next : e.Answer → Program α} (he : e.KeepsTasks)
      (hnext : Minds w.tasks t (next (e.perform env w).1)) :
      w.tasks.Settles (e.perform env w).2.tasks ∧
        Minds (e.perform env w).2.tasks t (next (e.perform env w).1) ∧
        ∀ u : Task, u.key ≠ t.key →
          (e.perform env w).2.tasks.get? u.channelId u.id = w.tasks.get? u.channelId u.id := by
    rw [he.perform_tasks env w]
    exact ⟨.refl _, hnext, fun _ _ => rfl⟩
  rcases h with ⟨ht, hp⟩ | hp
  · cases hp with
    | rest hrest =>
      cases hrest with
      | perform he hnext => exact quiet he (.inr (hnext _))
    | @look next hnext =>
      refine quiet (e := .getTask t.channelId t.id) trivial (.inl ⟨ht, ?_⟩)
      show (next (w.tasks.get? t.channelId t.id)).Settles t
      rw [ht]
      exact hnext
    | step he hnext => exact quiet he (.inl ⟨ht, hnext _⟩)
    | @replace t' _ hle hshape hnext =>
      have hplace : w.tasks.get? t'.channelId t'.id = some t :=
        (w.tasks.get?_of_key_eq hle.key).trans ht
      rw [Effect.perform_updateTask env hplace]
      refine ⟨TaskStore.replace_settles ht hle hshape, .inr (hnext _), ?_⟩
      intro u hu
      exact TaskStore.get?_replace_of_ne (hle.key ▸ hu)
  · cases hp with
    | perform he hnext => exact quiet he (.inr (hnext _))

theorem minds_of_get?_eq {s s' : TaskStore} {ts : List Task} {ps : List (Program α)}
    (h : List.Forall₂ (Minds s) ts ps)
    (heq : ∀ t ∈ ts, s'.get? t.channelId t.id = s.get? t.channelId t.id) :
    List.Forall₂ (Minds s') ts ps := by
  induction h with
  | nil => exact .nil
  | cons hp _ ih =>
    refine .cons ?_ (ih fun t ht => heq t (List.mem_cons_of_mem _ ht))
    rcases hp with ⟨ht, hp⟩ | hp
    · exact .inl ⟨(heq _ List.mem_cons_self).trans ht, hp⟩
    · exact .inr hp

/-- Programs that mind different tasks settle the store together, whatever the
order of their effects. -/
theorem Interleaves.settles {env : Surroundings σ} {ps : List (Program α)} {w w' : World σ}
    (h : Interleaves env ps w w') {ts : List Task} (hts : (ts.map Task.key).Nodup)
    (hps : List.Forall₂ (Minds w.tasks) ts ps) : w.tasks.Settles w'.tasks := by
  induction h generalizing ts with
  | finished => exact .refl _
  | @step before after e next w w' _ ih =>
    -- The tasks are cut where the programs are: before, at and after the one that acts.
    obtain ⟨tsBefore, rest, rfl, hbefore, hrest⟩ : ∃ us vs, ts = us ++ vs ∧
        List.Forall₂ (Minds w.tasks) us before ∧
        List.Forall₂ (Minds w.tasks) vs (.perform e next :: after) :=
      ⟨_, _, (List.take_append_drop before.length ts).symm,
        List.forall₂_take_append _ _ _ hps, List.forall₂_drop_append _ _ _ hps⟩
    obtain ⟨t, tsAfter, hact, hafter, rfl⟩ := List.forall₂_cons_right_iff.mp hrest
    have hne : ∀ u ∈ tsBefore ++ tsAfter, u.key ≠ t.key := by
      intro u hu heq
      have hmid : (t.key :: (tsBefore ++ tsAfter).map Task.key).Nodup := by
        rw [List.map_append] at hts ⊢
        rw [List.map_cons] at hts
        exact List.nodup_middle.mp hts
      exact (List.nodup_cons.mp hmid).1 (heq ▸ List.mem_map_of_mem hu)
    obtain ⟨hsettles, hnext, hothers⟩ := hact.perform env rfl
    refine hsettles.trans (ih hts ?_)
    have hkeep {us : List Task} (hus : us ⊆ tsBefore ++ tsAfter) (u : Task) (hu : u ∈ us) :
        (e.perform env w).2.tasks.get? u.channelId u.id = w.tasks.get? u.channelId u.id :=
      hothers u (hne u (hus hu))
    refine List.rel_append (minds_of_get?_eq hbefore (hkeep (List.subset_append_left _ _))) ?_
    exact .cons hnext (minds_of_get?_eq hafter (hkeep (List.subset_append_right _ _)))

theorem Settles.run {t : Task} {p : Program α} (hp : p.Settles t) (env : Surroundings σ)
    {w : World σ} (ht : w.tasks.get? t.channelId t.id = some t) :
    w.tasks.Settles (p.run env w).2.tasks := by
  have hrun : Interleaves env [p] w (p.run env w).2 := .cons_run (.finished (by simp))
  have hkeys : ([t].map Task.key).Nodup := List.nodup_singleton _
  exact hrun.settles hkeys (.cons (.inl ⟨ht, hp⟩) .nil)

end Program

namespace Attempt

theorem Settles.bind {t : Task} {a : Attempt ε α} {f : α → Attempt ε β}
    (ha : Ensures Effect.KeepsTasks Q a) (hf : ∀ x, Q x → (f x).run.Settles t) :
    (a >>= f).run.Settles t := by
  refine Program.Settles.bind ha ?_
  intro r hr
  cases r with
  | error e => exact .rest (.done trivial)
  | ok x => exact hf x (hr x rfl)

end Attempt

end VideoGateway

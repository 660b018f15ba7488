import VideoGateway.Proofs.Gateway.Run

/-!
# What is written holds of every record

A property of records that every write of the gateway respects, whatever it has
read and been answered before, holds of all records of a run that begins without
tasks. Polls may go on at the same time, since a write is one effect.
-/
namespace VideoGateway

open Attempt (Ensures)

variable {σ α : Type} {env : Surroundings σ} {w w' : World σ} {I : Task → Prop}

def TaskStore.All (I : Task → Prop) (s : TaskStore) : Prop :=
  ∀ c id t, s.get? c id = some t → I t

theorem World.withoutTasks_all (w : World σ) : w.withoutTasks.tasks.All I := by
  intro c id t ht
  rw [withoutTasks, TaskStore.get?_empty] at ht
  cases ht

namespace TaskStore

variable {s s' : TaskStore} {t : Task}

theorem All.insert (hs : s.All I) (ht : I t) (h : s.insert t = .ok s') : s'.All I := by
  intro c id u hu
  rcases (adds_of_insert h).get?_cases hu with hold | rfl
  · exact hs c id u hold
  · exact ht

theorem All.update (hs : s.All I) (ht : I t) (h : s.update t = .ok s') : s'.All I := by
  obtain rfl := eq_replace_of_update h
  intro c id u hu
  rw [get?_replace] at hu
  split at hu
  · obtain ⟨_, -, rfl⟩ := Option.map_eq_some_iff.mp hu
    exact ht
  · exact hs c id u hu

end TaskStore

namespace Effect

/-- The records that the effect writes have a property. -/
def Writes (I : Task → Prop) : Effect → Prop
  | .insertTask t | .updateTask t => I t
  | _ => True

theorem Writes.perform {e : Effect} (he : e.Writes I) (hw : w.tasks.All I) :
    (e.perform env w).2.tasks.All I := by
  rcases e.keepsTasks_or with hkeeps | ⟨t, rfl⟩ | ⟨t, rfl⟩
  · rwa [hkeeps.perform_tasks]
  · simp only [Effect.perform, World.store]
    cases hinsert : w.tasks.insert t with
    | error fault => exact hw
    | ok tasks => exact hw.insert he hinsert
  · simp only [Effect.perform, World.store]
    cases hupdate : w.tasks.update t with
    | error fault => exact hw
    | ok tasks => exact hw.update he hupdate

end Effect

namespace Program

variable {Q : α → Prop}

theorem Ensures.run_all {p : Program α} (hp : p.Ensures (Effect.Writes I) Q)
    (hw : w.tasks.All I) : (p.run env w).2.tasks.All I :=
  (hp.run env (fun u v => u.tasks.All I → v.tasks.All I) (fun _ h => h)
    (fun huv hvw h => hvw (huv h)) (fun _ _ he h => he.perform h) w).2 hw

theorem Interleaves.all {ps : List (Program α)} (h : Interleaves env ps w w')
    (hps : ∀ p ∈ ps, p.Ensures (Effect.Writes I) Q) (hw : w.tasks.All I) : w'.tasks.All I := by
  -- What is left of the program that acts writes no more than it did, the others wait.
  induction h with
  | finished => exact hw
  | @step before after e next w w' _ ih =>
    have hact := hps _ (List.mem_append_right before List.mem_cons_self)
    cases hact with
    | perform he hnext =>
      refine ih (fun p hp => ?_) (he.perform hw)
      rcases List.mem_append.mp hp with hp | hp
      · exact hps p (List.mem_append_left _ hp)
      · rcases List.mem_cons.mp hp with rfl | hp
        · exact hnext _
        · exact hps p (List.mem_append_right _ (List.mem_cons_of_mem _ hp))

end Program

namespace Gateway

variable {g : Gateway}

/-- All that the gateway ever writes has a property. -/
structure WritesOnly (g : Gateway) (I : Task → Prop) : Prop where
  submit : ∀ r cancelled now,
    (g.submit r cancelled now).run.Ensures (Effect.Writes I) fun _ => True
  poll : ∀ channelId taskId cancelled now,
    (g.poll channelId taskId cancelled now).run.Ensures (Effect.Writes I) fun _ => True
  expire : ∀ asOf timeout now,
    (Gateway.expire asOf timeout now).run.Ensures (Effect.Writes I) fun _ => True

theorem WritesOnly.step (h : g.WritesOnly I) (hstep : g.Step env w w') (hw : w.tasks.All I) :
    w'.tasks.All I := by
  cases hstep with
  | request r cancelled now =>
    rcases g.handle_run_snd env w r cancelled now with htasks | ⟨request, hrun⟩
    · rwa [htasks]
    · rw [hrun]
      exact (h.submit request cancelled now).run_all hw
  | submit r cancelled now => exact (h.submit r cancelled now).run_all hw
  | poll c id cancelled now => exact (h.poll c id cancelled now).run_all hw
  | pass timeout now cancelled clock hexpired hpolls =>
    have hexpire : ((Gateway.expire now timeout now).run.run env w).2.tasks.All I :=
      (h.expire now timeout now).run_all hw
    rw [hexpired] at hexpire
    refine hpolls.all (Q := fun _ => True) (fun p hp => ?_) hexpire
    obtain ⟨t, -, rfl⟩ := List.mem_map.mp hp
    exact h.poll t.channelId t.id (cancelled t) (clock t)
  | expire asOf timeout now => exact (h.expire asOf timeout now).run_all hw
  | document id => rwa [(g.document_ensures id trivial fun _ => trivial).run_tasks env w]
  | content id =>
    rwa [(g.content_ensures id trivial (fun _ => trivial) (fun _ => trivial)
      fun _ => trivial).run_tasks env w]
  | setRules rules => exact hw

/-- What is written holds of every record of a run. -/
theorem WritesOnly.reaches (h : g.WritesOnly I) {w₀ : World σ}
    (hrun : g.Reaches env w₀.withoutTasks w) : w.tasks.All I := by
  induction hrun with
  | refl => exact w₀.withoutTasks_all
  | tail _ hstep ih => exact h.step hstep ih

end Gateway

end VideoGateway

import VideoGateway.Proofs.Basic
import VideoGateway.Task.Store

/-!
# The two tables of the store tell the same

The records and the owners stand for one finite map from ids to tasks. Adding a
task extends this map at an id that was free, replacing one changes it at one
place, and every other place is left alone.
-/
namespace VideoGateway

namespace TaskStore

variable {s : TaskStore} {c : Nat} {id : String} {t u : Task}

theorem keys_nodup (s : TaskStore) : (s.records.map Prod.fst).Nodup := by
  have h : ((s.records.map Prod.fst).map Prod.snd).Nodup := by
    have hids : (s.records.map Prod.fst).map Prod.snd = s.owners.map Prod.fst := by
      simp [s.owned]
    rw [hids]
    exact s.unique
  exact h.of_map _

theorem get?_eq_some_iff : s.get? c id = some t ↔ ((c, id), t) ∈ s.records :=
  lookup_eq_some_iff_mem s.keys_nodup

theorem key_of_get? (h : s.get? c id = some t) : t.key = (c, id) :=
  (s.keyed _ (get?_eq_some_iff.mp h)).symm

theorem get?_of_key_eq (s : TaskStore) (h : t.key = u.key) :
    s.get? t.channelId t.id = s.get? u.channelId u.id := by
  obtain ⟨hc, hid⟩ := Prod.mk.inj h
  rw [hc, hid]

theorem get?_of_mem (h : t ∈ s.records.map Prod.snd) : s.get? t.channelId t.id = some t := by
  obtain ⟨r, hr, rfl⟩ := List.mem_map.mp h
  have hkey : r = (r.2.key, r.2) := Prod.ext (s.keyed r hr) rfl
  rw [get?_eq_some_iff]
  exact hkey ▸ hr

theorem owner_eq_some_iff : s.owners.lookup id = some c ↔ ∃ t, s.get? c id = some t := by
  rw [lookup_eq_some_iff_mem s.unique, s.owned]
  simp only [get?_eq_some_iff, List.mem_map, Prod.mk.injEq]
  constructor
  · rintro ⟨r, hr, rfl, rfl⟩
    exact ⟨r.2, hr⟩
  · rintro ⟨t, ht⟩
    exact ⟨_, ht, rfl, rfl⟩

theorem find?_eq_some_iff : s.find? id = some t ↔ ∃ c, s.get? c id = some t := by
  unfold find?
  constructor
  · intro h
    split at h
    · simp at h
    · exact ⟨_, h⟩
  · rintro ⟨c, h⟩
    rw [owner_eq_some_iff.mpr ⟨t, h⟩]
    exact h

theorem find?_eq_none_iff : s.find? id = none ↔ ∀ c, s.get? c id = none := by
  simp only [Option.eq_none_iff_forall_ne_some, ne_eq, find?_eq_some_iff, not_exists]
  exact forall_comm

theorem owner_eq_none_iff : s.owners.lookup id = none ↔ s.find? id = none := by
  rw [find?_eq_none_iff]
  simp only [Option.eq_none_iff_forall_ne_some, ne_eq, owner_eq_some_iff, not_exists]

@[simp] theorem get?_empty : empty.get? c id = none := rfl

theorem get?_add (h : s.owners.lookup t.id = none) :
    (s.add t h).get? c id = if (c, id) = t.key then some t else s.get? c id := by
  have hfree : s.get? c t.id = none := find?_eq_none_iff.mp (owner_eq_none_iff.mp h) c
  simp only [get?] at hfree
  simp only [get?, add, List.lookup_append, List.lookup_cons, List.lookup_nil]
  by_cases hk : (c, id) = t.key
  · obtain ⟨-, hid⟩ := Prod.mk.inj hk
    rw [hid, hfree, ← hid, if_pos hk]
    simp [hk]
  · have hb : ((c, id) == t.key) = false := by simpa using hk
    simp [hk, hb]

theorem get?_replace :
    (s.replace t).get? c id = if (c, id) = t.key then (s.get? c id).map fun _ => t
      else s.get? c id := by
  simp only [get?, replace]
  induction s.records with
  | nil => simp
  | cons r rs ih =>
    rw [List.map_cons, List.lookup_cons, List.lookup_cons, ih]
    by_cases hr : r.1 = t.key <;> by_cases hk : (c, id) = t.key
    · simp [hr, hk]
    · have hb : ((c, id) == t.key) = false := by simpa using hk
      simp [hr, hk, hb]
    · have hb : (t.key == r.1) = false := by simpa using fun h => hr h.symm
      simp [hr, hk, hb]
    · simp [hr, hk]

theorem get?_replace_of_ne (h : (c, id) ≠ t.key) : (s.replace t).get? c id = s.get? c id := by
  rw [get?_replace, if_neg h]

theorem get?_replace_self (h : s.get? c id = some u) (hkey : t.key = (c, id)) :
    (s.replace t).get? c id = some t := by
  rw [get?_replace, if_pos hkey.symm, h]
  rfl

theorem insert_of_find?_eq_none (h : s.find? t.id = none) :
    s.insert t = .ok (s.add t (owner_eq_none_iff.mpr h)) := by
  unfold insert
  split
  · next hc => rw [owner_eq_none_iff.mpr h] at hc; cases hc
  · rfl

theorem find?_eq_none_of_insert {s' : TaskStore} (h : s.insert t = .ok s') :
    s.find? t.id = none := by
  unfold insert at h
  split at h
  · cases h
  · next hfree => exact owner_eq_none_iff.mp hfree

/-- One record is new, and the others are as they were. -/
structure Adds (s : TaskStore) (t : Task) (s' : TaskStore) : Prop where
  free : s.find? t.id = none
  get?_self : s'.get? t.channelId t.id = some t
  get?_of_ne : ∀ c id, (c, id) ≠ t.key → s'.get? c id = s.get? c id
  size : s'.size = s.size + 1

theorem adds_of_insert {s' : TaskStore} (h : s.insert t = .ok s') : s.Adds t s' := by
  have hfree := find?_eq_none_of_insert h
  rw [insert_of_find?_eq_none hfree] at h
  obtain rfl := Except.ok.inj h
  refine ⟨hfree, ?_, fun c id hk => ?_, ?_⟩
  · exact (get?_add _).trans (if_pos rfl)
  · exact (get?_add _).trans (if_neg hk)
  · simp [size, add]

theorem Adds.get?_cases {s' : TaskStore} (h : s.Adds t s') (hu : s'.get? c id = some u) :
    s.get? c id = some u ∨ u = t := by
  by_cases hk : (c, id) = t.key
  · obtain ⟨rfl, rfl⟩ := Prod.mk.inj hk
    exact .inr (Option.some.inj (hu.symm.trans h.get?_self))
  · exact .inl ((h.get?_of_ne c id hk).symm.trans hu)

theorem Adds.get?_of_get? {s' : TaskStore} (h : s.Adds t s') (hu : s.get? c id = some u) :
    s'.get? c id = some u := by
  rw [h.get?_of_ne, hu]
  intro hk
  have hid : id = t.id := (Prod.mk.inj hk).2
  rw [hid, find?_eq_none_iff.mp h.free c] at hu
  cases hu

theorem update_of_get? (h : s.get? t.channelId t.id = some u) : s.update t = .ok (s.replace t) := by
  have h : s.records.lookup t.key = some u := h
  simp [update, h]

theorem eq_replace_of_update {s' : TaskStore} (h : s.update t = .ok s') : s' = s.replace t := by
  unfold update at h
  split at h
  · exact (Except.ok.inj h).symm
  · cases h

theorem mem_unfinished :
    t ∈ s.unfinished ↔ s.get? t.channelId t.id = some t ∧ t.isFinal = false := by
  simp only [unfinished, List.mem_filter, Bool.not_eq_eq_eq_not, Bool.not_true]
  constructor
  · rintro ⟨hmem, hopen⟩
    exact ⟨get?_of_mem hmem, hopen⟩
  · rintro ⟨hget, hopen⟩
    exact ⟨List.mem_map_of_mem (get?_eq_some_iff.mp hget), hopen⟩

theorem unfinished_keys_nodup (s : TaskStore) : (s.unfinished.map Task.key).Nodup := by
  have hkeys : (s.records.map Prod.snd).map Task.key = s.records.map Prod.fst := by
    rw [List.map_map]
    exact List.map_congr_left fun r hr => (s.keyed r hr).symm
  have hall : ((s.records.map Prod.snd).map Task.key).Nodup := hkeys ▸ s.keys_nodup
  exact hall.sublist (List.filter_sublist.map _)

end TaskStore

end VideoGateway

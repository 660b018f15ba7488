import Mathlib.Data.Set.Card
import VideoGateway.Proofs.Task.Store

/-!
# The store is one map

Seen through its calls, the store is a map from ids to tasks. Whatever calls are
made, each is answered as the map answers it and leaves what the map becomes by
it, and a call that fails leaves the map as it was. So an id has an owner exactly
when a task of this id stands in its place.
-/
namespace VideoGateway

/-- A call that somebody makes to the store. -/
inductive StoreCall where
  | insert (t : Task)
  | update (t : Task)
  | get (channelId : Nat) (taskId : String)
  | find (taskId : String)
  | unfinished
  | size

inductive StoreReply where
  | written (result : Except StoreError Unit)
  | task (t : Option Task)
  | tasks (ts : List Task)
  | count (n : Nat)

namespace TaskStore

def written (s : TaskStore) : Except StoreError TaskStore → StoreReply × TaskStore
  | .ok s' => (.written (.ok ()), s')
  | .error e => (.written (.error e), s)

def answer (s : TaskStore) : StoreCall → StoreReply × TaskStore
  | .insert t => s.written (s.insert t)
  | .update t => s.written (s.update t)
  | .get c id => (.task (s.get? c id), s)
  | .find id => (.task (s.find? id), s)
  | .unfinished => (.tasks s.unfinished, s)
  | .size => (.count s.size, s)

def answers (s : TaskStore) : List StoreCall → List StoreReply × TaskStore
  | [] => ([], s)
  | call :: calls =>
    let (reply, s) := s.answer call
    let (replies, s) := s.answers calls
    (reply :: replies, s)

end TaskStore

/-- Tasks by their ids. -/
abbrev TaskMap := String → Option Task

namespace TaskMap

/-- What the map replies to a call, and what it becomes. -/
inductive Answers (m : TaskMap) : StoreCall → StoreReply → TaskMap → Prop
  | insert {t : Task} : m t.id = none →
      Answers m (.insert t) (.written (.ok ())) (Function.update m t.id (some t))
  | duplicate {t u : Task} : m t.id = some u →
      Answers m (.insert t) (.written (.error (.duplicate u.channelId t.id))) m
  | update {t u : Task} : m t.id = some u → u.channelId = t.channelId →
      Answers m (.update t) (.written (.ok ())) (Function.update m t.id (some t))
  | missing {t : Task} : (∀ u, m t.id = some u → u.channelId ≠ t.channelId) →
      Answers m (.update t) (.written (.error (.missing t.channelId t.id))) m
  | get {c : Nat} {id : String} :
      Answers m (.get c id) (.task ((m id).filter fun t => t.channelId = c)) m
  | find {id : String} : Answers m (.find id) (.task (m id)) m
  /-- Every task that is not finished is listed, and none twice. -/
  | unfinished {ts : List Task} : (ts.map Task.id).Nodup →
      (∀ t, t ∈ ts ↔ m t.id = some t ∧ t.isFinal = false) →
      Answers m .unfinished (.tasks ts) m
  | size {n : Nat} : {id | m id ≠ none}.encard = n → Answers m .size (.count n) m

/-- What the map replies to calls that come one after the other. -/
inductive Run : TaskMap → List StoreCall → List StoreReply → TaskMap → Prop
  | nil {m : TaskMap} : Run m [] [] m
  | cons {m m' m'' : TaskMap} {call : StoreCall} {calls : List StoreCall} {reply : StoreReply}
      {replies : List StoreReply} : m.Answers call reply m' → Run m' calls replies m'' →
      Run m (call :: calls) (reply :: replies) m''

end TaskMap

namespace TaskStore

variable {s : TaskStore} {c : Nat} {id : String} {t u : Task}

/-- A task is found by its id in the place of its own channel. -/
theorem find?_eq_some_iff_get? : s.find? id = some t ↔ s.get? t.channelId id = some t := by
  rw [find?_eq_some_iff]
  constructor
  · rintro ⟨c, hc⟩
    obtain ⟨rfl, -⟩ := Prod.mk.inj (key_of_get? hc)
    exact hc
  · intro h
    exact ⟨_, h⟩

theorem get?_eq_filter_find? (s : TaskStore) (c : Nat) (id : String) :
    s.get? c id = (s.find? id).filter fun t => t.channelId = c := by
  ext t
  rw [Option.filter_eq_some_iff, find?_eq_some_iff_get?, decide_eq_true_eq]
  constructor
  · intro h
    obtain ⟨rfl, -⟩ := Prod.mk.inj (key_of_get? h)
    exact ⟨h, rfl⟩
  · rintro ⟨h, rfl⟩
    exact h

theorem find?_add (h : s.owners.lookup t.id = none) :
    (s.add t h).find? = Function.update s.find? t.id (some t) := by
  have hfree : s.find? t.id = none := owner_eq_none_iff.mp h
  funext id
  ext u
  rw [find?_eq_some_iff_get?, get?_add, Function.update_apply]
  by_cases hid : id = t.id
  · subst hid
    have hnone : s.get? u.channelId t.id = none := find?_eq_none_iff.mp hfree u.channelId
    rw [if_pos rfl, hnone]
    constructor
    · intro hu
      split at hu
      · exact hu
      · cases hu
    · intro hu
      obtain rfl := Option.some.inj hu
      exact if_pos rfl
  · have hkey : (u.channelId, id) ≠ t.key := fun heq => hid (Prod.mk.inj heq).2
    rw [if_neg hid, if_neg hkey, find?_eq_some_iff_get?]

theorem find?_replace (h : s.get? t.channelId t.id = some u) :
    (s.replace t).find? = Function.update s.find? t.id (some t) := by
  have hself : (s.replace t).get? t.channelId t.id = some t := get?_replace_self h rfl
  funext id
  rw [Function.update_apply]
  by_cases hid : id = t.id
  · subst hid
    rw [if_pos rfl, find?_eq_some_iff_get?]
    exact hself
  · rw [if_neg hid]
    ext v
    have hkey : (v.channelId, id) ≠ t.key := fun heq => hid (Prod.mk.inj heq).2
    rw [find?_eq_some_iff_get?, find?_eq_some_iff_get?, get?_replace_of_ne hkey]

theorem mem_owners_iff : id ∈ s.owners.map Prod.fst ↔ s.find? id ≠ none := by
  rw [ne_eq, ← owner_eq_none_iff, ← ne_eq, ← Option.isSome_iff_ne_none, Option.isSome_iff_exists]
  constructor
  · intro h
    obtain ⟨⟨_, c⟩, hmem, rfl⟩ := List.mem_map.mp h
    exact ⟨c, (lookup_eq_some_iff_mem s.unique).mpr hmem⟩
  · rintro ⟨c, hc⟩
    exact List.mem_map.mpr ⟨_, mem_of_lookup_eq_some hc, rfl⟩

theorem encard_find? (s : TaskStore) : {id | s.find? id ≠ none}.encard = s.size := by
  have hids : {id | s.find? id ≠ none} = ↑(s.owners.map Prod.fst).toFinset := by
    ext id
    rw [List.coe_toFinset, Set.mem_ofPred_eq, Set.mem_ofPred_eq, mem_owners_iff]
  rw [hids, Set.encard_coe_eq_coe_finsetCard, List.toFinset_card_of_nodup s.unique]
  simp [s.owned, size]

theorem mem_unfinished_iff_find? :
    t ∈ s.unfinished ↔ s.find? t.id = some t ∧ t.isFinal = false := by
  rw [mem_unfinished, find?_eq_some_iff_get?]

theorem unfinished_ids_nodup (s : TaskStore) : (s.unfinished.map Task.id).Nodup := by
  refine List.Nodup.map_on ?_ (s.unfinished_keys_nodup.of_map _)
  intro t ht u hu hid
  have ht := (mem_unfinished_iff_find?.mp ht).1
  have hu := (mem_unfinished_iff_find?.mp hu).1
  rw [hid] at ht
  exact Option.some.inj (ht.symm.trans hu)

theorem insert_of_owner (h : s.owners.lookup t.id = some c) :
    s.insert t = .error (.duplicate c t.id) := by
  unfold insert
  split
  · next c' hc' =>
    obtain rfl : c = c' := Option.some.inj (h.symm.trans hc')
    rfl
  · next hnone =>
    rw [h] at hnone
    cases hnone

theorem update_of_get?_eq_none (h : s.get? t.channelId t.id = none) :
    s.update t = .error (.missing t.channelId t.id) := by
  have h : s.records.lookup t.key = none := h
  simp [update, h]

/-- A single call is answered as the map answers it. -/
theorem answer_refines (s : TaskStore) (call : StoreCall) :
    TaskMap.Answers s.find? call (s.answer call).1 (s.answer call).2.find? := by
  cases call with
  | insert t =>
    cases hfind : s.find? t.id with
    | none =>
      simp only [answer, insert_of_find?_eq_none hfind, written, find?_add]
      exact .insert hfind
    | some u =>
      have howner : s.owners.lookup t.id = some u.channelId :=
        owner_eq_some_iff.mpr ⟨u, find?_eq_some_iff_get?.mp hfind⟩
      simp only [answer, insert_of_owner howner, written]
      exact .duplicate hfind
  | update t =>
    cases hget : s.get? t.channelId t.id with
    | none =>
      simp only [answer, update_of_get?_eq_none hget, written]
      refine .missing fun u hu hchannel => ?_
      rw [find?_eq_some_iff_get?, hchannel, hget] at hu
      cases hu
    | some u =>
      have hchannel : u.channelId = t.channelId := (Prod.mk.inj (key_of_get? hget)).1
      simp only [answer, update_of_get? hget, written, find?_replace hget]
      refine .update (find?_eq_some_iff_get?.mpr ?_) hchannel
      rw [hchannel]
      exact hget
  | get c id =>
    simp only [answer, get?_eq_filter_find?]
    exact .get
  | find id => exact .find
  | unfinished => exact .unfinished s.unfinished_ids_nodup fun t => mem_unfinished_iff_find?
  | size => exact .size s.encard_find?

theorem answers_refine (s : TaskStore) (calls : List StoreCall) :
    TaskMap.Run s.find? calls (s.answers calls).1 (s.answers calls).2.find? := by
  induction calls generalizing s with
  | nil => exact .nil
  | cons call calls ih => exact .cons (s.answer_refines call) (ih _)

/-- Whatever calls are made to a store that begins empty, it replies as one map
from ids to tasks does and stands for what this map becomes. An id has an owner
exactly when a task of this id stands in its own place at this channel. -/
theorem store_is_map (calls : List StoreCall) :
    TaskMap.Run (fun _ => none) calls (empty.answers calls).1 (empty.answers calls).2.find? ∧
      ∀ c id, (empty.answers calls).2.owners.lookup id = some c ↔
        ∃ t, (empty.answers calls).2.records.lookup (c, id) = some t ∧ t.key = (c, id) := by
  refine ⟨answers_refine empty calls, fun c id => ?_⟩
  rw [owner_eq_some_iff]
  constructor
  · rintro ⟨t, ht⟩
    exact ⟨t, ht, key_of_get? ht⟩
  · rintro ⟨t, ht, -⟩
    exact ⟨t, ht⟩

end TaskStore

end VideoGateway

import VideoGateway.Task.Record

/-!
# The task store

Tasks by channel and id, and the channel that holds an id. No two channels hold
the same id. Tasks are kept in the order in which they came.
-/
namespace VideoGateway

inductive StoreError where
  /-- A channel holds the id already. -/
  | duplicate (channelId : Nat) (taskId : String)
  /-- The channel does not hold the id. -/
  | missing (channelId : Nat) (taskId : String)
deriving DecidableEq, Repr

namespace StoreError

def text : StoreError → String
  | .duplicate channelId taskId =>
    "task " ++ taskId ++ " already exists on channel " ++ Text.natText channelId
  | .missing channelId taskId =>
    "task " ++ taskId ++ " does not exist on channel " ++ Text.natText channelId

end StoreError

/-- The tasks by channel and id, and the channels by id. -/
structure TaskStore where
  records : List ((Nat × String) × Task)
  owners : List (String × Nat)
  keyed : ∀ r ∈ records, r.1 = r.2.key
  owned : owners = records.map fun r => (r.1.2, r.1.1)
  /-- One channel holds an id. -/
  unique : (owners.map Prod.fst).Nodup

namespace TaskStore

def empty : TaskStore := ⟨[], [], by simp, rfl, .nil⟩

def size (s : TaskStore) : Nat := s.records.length

def get? (s : TaskStore) (channelId : Nat) (taskId : String) : Option Task :=
  s.records.lookup (channelId, taskId)

/-- The task of an id, whatever its channel. -/
def find? (s : TaskStore) (taskId : String) : Option Task :=
  match s.owners.lookup taskId with
  | none => none
  | some channelId => s.get? channelId taskId

/-- The store with a task of an id that no channel holds. -/
def add (s : TaskStore) (t : Task) (h : s.owners.lookup t.id = none) : TaskStore where
  records := s.records ++ [(t.key, t)]
  owners := s.owners ++ [(t.id, t.channelId)]
  keyed := by
    intro r hr
    rcases List.mem_append.mp hr with hr | hr
    · exact s.keyed r hr
    · rw [List.mem_singleton.mp hr]
  owned := by simp [s.owned, Task.key]
  unique := by
    have hnew : ∀ id ∈ s.owners.map Prod.fst, id ≠ t.id := by
      intro id hid heq
      obtain ⟨owner, hmem, rfl⟩ := List.mem_map.mp hid
      have hne := List.lookup_eq_none_iff.mp h owner hmem
      simp [heq] at hne
    simp only [List.map_append, List.map_cons, List.map_nil, List.nodup_append]
    refine ⟨s.unique, by simp, ?_⟩
    intro id hid other hother
    rw [List.mem_singleton.mp hother]
    exact hnew id hid

def insert (s : TaskStore) (t : Task) : Except StoreError TaskStore :=
  match h : s.owners.lookup t.id with
  | some channelId => .error (.duplicate channelId t.id)
  | none => .ok (s.add t h)

/-- The store with another record in the place of a task. -/
def replace (s : TaskStore) (t : Task) : TaskStore where
  records := s.records.map fun r => if r.1 = t.key then (t.key, t) else r
  owners := s.owners
  keyed := by
    intro r hr
    obtain ⟨old, hold, rfl⟩ := List.mem_map.mp hr
    split
    · rfl
    · exact s.keyed old hold
  owned := by
    rw [s.owned, List.map_map]
    apply List.map_congr_left
    intro r _
    by_cases h : r.1 = t.key <;> simp [h]
  unique := s.unique

def update (s : TaskStore) (t : Task) : Except StoreError TaskStore :=
  if (s.records.lookup t.key).isSome then .ok (s.replace t)
  else .error (.missing t.channelId t.id)

def unfinished (s : TaskStore) : List Task :=
  (s.records.map (·.2)).filter fun t => !t.isFinal

end TaskStore

end VideoGateway

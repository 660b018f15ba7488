/-!
# The life of a task

A task is queued, then in progress, then finished, by success or failure. Steps
may be left out but never taken back, and a finished task stays as it is.
-/
namespace VideoGateway

inductive TaskStatus where
  | queued
  | inProgress
  | success
  | failure
deriving DecidableEq, Repr

namespace TaskStatus

def text : TaskStatus → String
  | .queued => "queued"
  | .inProgress => "in_progress"
  | .success => "success"
  | .failure => "failure"

/-- The status as it is shown in a video document. -/
def publicText : TaskStatus → String
  | .queued => "queued"
  | .inProgress => "in_progress"
  | .success => "completed"
  | .failure => "failed"

def ofText? (s : String) : Option TaskStatus :=
  [queued, inProgress, success, failure].find? (·.text == s)

def isFinal : TaskStatus → Bool
  | .success | .failure => true
  | .queued | .inProgress => false

/-- The place of a status in the life of a task. -/
def rank : TaskStatus → Nat
  | .queued => 0
  | .inProgress => 1
  | .success | .failure => 2

/-- Whether a task of the first status may take the second one. -/
def mayBecome (s t : TaskStatus) : Bool :=
  !s.isFinal && decide (s.rank ≤ t.rank)

theorem mayBecome_iff {s t : TaskStatus} :
    s.mayBecome t = true ↔ s.isFinal = false ∧ s.rank ≤ t.rank := by
  simp [mayBecome]

end TaskStatus

end VideoGateway

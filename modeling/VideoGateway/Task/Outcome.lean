import VideoGateway.Json.Record
import VideoGateway.Task.Error
import VideoGateway.Task.Status
import VideoGateway.Text.Ascii
import VideoGateway.Text.Blank

/-!
# What a status query tells

A vendor's answer to a status query, in terms common to all vendors, and the
outcome that it means for the task. A vendor's status words are looked up in the
vendor's table. An error in the answer counts before its status, a success
without the address of a video is no success, and an unknown status means that
the task is under way.
-/
namespace VideoGateway

/-- Counters that a vendor bills by. -/
structure Usage where
  completionTokens : Nat
  totalTokens : Nat
deriving DecidableEq, Repr

namespace Usage

open Document (Slot Reading)

def completionTokensSlot : Slot Nat := .defaulted "completion_tokens" .word64 0
def totalTokensSlot : Slot Nat := .defaulted "total_tokens" .word64 0

def read : Reading Usage := fun d => do
  let r ← Document.Record.ofDocument [completionTokensSlot.field, totalTokensSlot.field] d
  pure ⟨← r.get completionTokensSlot, ← r.get totalTokensSlot⟩

def toJson (u : Usage) : Json :=
  .object [("completion_tokens", .nat u.completionTokens), ("total_tokens", .nat u.totalTokens)]

end Usage

/-- What a status query means for a task. -/
structure Outcome where
  status : TaskStatus
  progress : Nat
  url : Option String
  secondaryUrl : Option String
  reason : Option String
  usage : Option Usage
deriving DecidableEq, Repr

namespace Outcome

/-- The progress of a task that is queued, under way, under way in an unknown
way, and finished. -/
def queuedProgress : Nat := 10
def runningProgress : Nat := 50
def unknownProgress : Nat := 30
def finalProgress : Nat := 100

def pending (status : TaskStatus) (progress : Nat) : Outcome :=
  ⟨status, progress, none, none, none, none⟩

def failure (reason : String) : Outcome :=
  ⟨.failure, finalProgress, none, none, some reason, none⟩

end Outcome

/-- An error that a vendor reports, with a message that is not blank. -/
structure VendorError where
  code : String
  message : String
  told : Text.isBlankText message = false
deriving DecidableEq, Repr

namespace VendorError

/-- An error object without a message is no error. -/
def new? (code message : String) : Option VendorError :=
  if h : Text.isBlankText message then none else some ⟨code, message, by simpa using h⟩

/-- The message, after the code in brackets if there is one. -/
def text (e : VendorError) : String :=
  if e.code.isEmpty then e.message else "[" ++ e.code ++ "] " ++ e.message

end VendorError

/-- The meaning of a vendor's status word. -/
inductive VendorState where
  | queued
  | running
  | succeeded
  | failed (reason : String)
deriving DecidableEq, Repr

structure Poll where
  status : String
  error : Option VendorError
  resultUrl : Option String
  secondaryUrl : Option String
  progress : Option Nat
  usage : Option Usage
deriving DecidableEq, Repr

abbrev StatusTable := List (String × VendorState)

namespace StatusTable

/-- The meaning of a status word, between blanks and in any letter case. -/
def lookup? (t : StatusTable) (status : String) : Option VendorState :=
  (List.find? (fun (known, _) => Text.equalFold known (Text.trim status)) t).map (·.2)

def address? (url : Option String) : Option String :=
  url.filter fun url => !Text.isBlankText url

def interpret (t : StatusTable) (p : Poll) : Except TaskError Outcome :=
  match p.error with
  | some e => .ok (.failure e.text)
  | none =>
    match t.lookup? p.status with
    | some .queued => .ok (.pending .queued Outcome.queuedProgress)
    | some .running =>
      let reported := p.progress.map fun n => min n (Outcome.finalProgress - 1)
      .ok (.pending .inProgress (reported.getD Outcome.runningProgress))
    | some .succeeded =>
      match address? p.resultUrl with
      | none => .error (.missingResultUrl p.status)
      | some url =>
        .ok ⟨.success, Outcome.finalProgress, some url, address? p.secondaryUrl, none, p.usage⟩
    | some (.failed reason) => .ok (.failure reason)
    | none => .ok (.pending .inProgress Outcome.unknownProgress)

end StatusTable

end VideoGateway

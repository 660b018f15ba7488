import VideoGateway.Json.Record
import VideoGateway.Task.Outcome
import VideoGateway.Vendor.Basic

/-!
# Answers of vendors

The records in which the vendors answer, and what they say in terms common to
all: which task was accepted, how a task is going on, where a file is. Every
field may be missing; a field that is there has to be of its type.
-/
namespace VideoGateway

open Document (Slot Reading Record)

/-- A text that is absent when it is missing. -/
def Document.Slot.text (name : String) : Slot String :=
  .defaulted name .string ""

/-- What a vendor says about a request for a task. -/
structure Acceptance where
  taskId : String
  error : Option VendorError
deriving DecidableEq, Repr

structure ErrorObject where
  code : String
  message : String
deriving DecidableEq, Repr

namespace ErrorObject

def codeSlot : Slot String := .text "code"
def messageSlot : Slot String := .text "message"

def read : Reading ErrorObject := fun d => do
  let r ← Record.ofDocument [codeSlot.field, messageSlot.field] d
  pure ⟨← r.get codeSlot, ← r.get messageSlot⟩

/-- Where an answer holds its error object. -/
def slot : Slot (Option ErrorObject) := .optional ["error"] read

def vendorError? (e : ErrorObject) : Option VendorError :=
  VendorError.new? e.code e.message

end ErrorObject

namespace Doubao

structure Submission where
  id : String
  error : Option ErrorObject
deriving DecidableEq, Repr

namespace Submission

def idSlot : Slot String := .text "id"

def read : Reading Submission := fun d => do
  let r ← Record.ofDocument [idSlot.field, ErrorObject.slot.field] d
  pure ⟨← r.get idSlot, ← r.get ErrorObject.slot⟩

def acceptance (s : Submission) : Acceptance :=
  ⟨s.id, s.error.bind ErrorObject.vendorError?⟩

end Submission

/-- Where the results of a task are. -/
structure Content where
  videoUrl : Option String
  audioUrl : Option String
deriving DecidableEq, Repr

namespace Content

def videoUrlSlot : Slot (Option String) := .optional ["video_url"] .string
def audioUrlSlot : Slot (Option String) := .optional ["audio_url"] .string

def read : Reading Content := fun d => do
  let r ← Record.ofDocument [videoUrlSlot.field, audioUrlSlot.field] d
  pure ⟨← r.get videoUrlSlot, ← r.get audioUrlSlot⟩

def empty : Content := ⟨none, none⟩

end Content

structure Report where
  status : String
  content : Content
  error : Option ErrorObject
  seed : Option Int
  resolution : Option String
  duration : Option Nat
  ratio : Option String
  fps : Option Nat
  usage : Option Usage
deriving DecidableEq, Repr

namespace Report

def statusSlot : Slot String := .text "status"
def contentSlot : Slot Content := .defaulted "content" Content.read Content.empty
def seedSlot : Slot (Option Int) := .optional ["seed"] .signed64
def resolutionSlot : Slot (Option String) := .optional ["resolution"] .string
def durationSlot : Slot (Option Nat) := .optional ["duration"] .word32
def ratioSlot : Slot (Option String) := .optional ["ratio"] .string
def fpsSlot : Slot (Option Nat) := .optional ["framespersecond"] .word32
def usageSlot : Slot (Option Usage) := .optional ["usage"] Usage.read

def fields : List Document.Field :=
  [statusSlot.field, contentSlot.field, ErrorObject.slot.field, seedSlot.field, resolutionSlot.field,
    durationSlot.field, ratioSlot.field, fpsSlot.field, usageSlot.field]

def read : Reading Report := fun d => do
  let r ← Record.ofDocument fields d
  pure {
    status := ← r.get statusSlot
    content := ← r.get contentSlot
    error := ← r.get ErrorObject.slot
    seed := ← r.get seedSlot
    resolution := ← r.get resolutionSlot
    duration := ← r.get durationSlot
    ratio := ← r.get ratioSlot
    fps := ← r.get fpsSlot
    usage := ← r.get usageSlot }

def empty : Report := ⟨"", .empty, none, none, none, none, none, none, none⟩

def vendorError? (r : Report) : Option VendorError :=
  r.error.bind ErrorObject.vendorError?

def poll (r : Report) : Poll where
  status := r.status
  error := r.vendorError?
  resultUrl := r.content.videoUrl
  secondaryUrl := r.content.audioUrl
  progress := none
  usage := r.usage

end Report

def statuses : StatusTable :=
  [("pending", .queued), ("queued", .queued), ("processing", .running), ("running", .running),
    ("succeeded", .succeeded), ("completed", .succeeded), ("success", .succeeded),
    ("failed", .failed "task failed"), ("error", .failed "task failed"),
    ("cancelled", .failed "task cancelled"), ("canceled", .failed "task cancelled")]

end Doubao

namespace Hailuo

/-- The verdict that comes with every answer; zero stands for no error. -/
structure Verdict where
  code : Int
  message : String
deriving DecidableEq, Repr

namespace Verdict

def codeSlot : Slot Int := .defaulted "status_code" .signed64 0
def messageSlot : Slot String := .text "status_msg"

def read : Reading Verdict := fun d => do
  let r ← Record.ofDocument [codeSlot.field, messageSlot.field] d
  pure ⟨← r.get codeSlot, ← r.get messageSlot⟩

def fine : Verdict := ⟨0, ""⟩

def slot : Slot Verdict := .defaulted "base_resp" read fine

def vendorError? (v : Verdict) : Option VendorError :=
  if v.code = 0 then none
  else VendorError.new? (Text.intText v.code)
    (if v.message.isEmpty then "request rejected" else v.message)

end Verdict

structure Submission where
  taskId : String
  verdict : Verdict
deriving DecidableEq, Repr

namespace Submission

def taskIdSlot : Slot String := .text "task_id"

def read : Reading Submission := fun d => do
  let r ← Record.ofDocument [taskIdSlot.field, Verdict.slot.field] d
  pure ⟨← r.get taskIdSlot, ← r.get Verdict.slot⟩

def acceptance (s : Submission) : Acceptance :=
  ⟨s.taskId, s.verdict.vendorError?⟩

end Submission

/-- The state of a task. The address of the video is not part of what the vendor
says here; it is put in once the file is found. -/
structure Report where
  status : String
  fileId : String
  videoWidth : Nat
  videoHeight : Nat
  videoUrl : Option String
  verdict : Verdict
deriving DecidableEq, Repr

namespace Report

def statusSlot : Slot String := .text "status"
def fileIdSlot : Slot String := .text "file_id"
def videoWidthSlot : Slot Nat := .defaulted "video_width" .word32 0
def videoHeightSlot : Slot Nat := .defaulted "video_height" .word32 0
def videoUrlSlot : Slot (Option String) := .optional ["video_url"] .string

def fields : List Document.Field :=
  [statusSlot.field, fileIdSlot.field, videoWidthSlot.field, videoHeightSlot.field,
    videoUrlSlot.field, Verdict.slot.field]

def read : Reading Report := fun d => do
  let r ← Record.ofDocument fields d
  pure {
    status := ← r.get statusSlot
    fileId := ← r.get fileIdSlot
    videoWidth := ← r.get videoWidthSlot
    videoHeight := ← r.get videoHeightSlot
    videoUrl := ← r.get videoUrlSlot
    verdict := ← r.get Verdict.slot }

def empty : Report := ⟨"", "", 0, 0, none, .fine⟩

def poll (r : Report) : Poll where
  status := r.status
  error := r.verdict.vendorError?
  resultUrl := r.videoUrl
  secondaryUrl := none
  progress := none
  usage := none

end Report

/-- Where a file is, and the verdict on the question. -/
structure FileAnswer where
  downloadUrl : String
  verdict : Verdict
deriving DecidableEq, Repr

namespace FileAnswer

def downloadUrlSlot : Slot String := .text "download_url"

def readFile : Reading String := fun d => do
  let r ← Record.ofDocument [downloadUrlSlot.field] d
  r.get downloadUrlSlot

def fileSlot : Slot String := .defaulted "file" readFile ""

def read : Reading FileAnswer := fun d => do
  let r ← Record.ofDocument [fileSlot.field, Verdict.slot.field] d
  pure ⟨← r.get fileSlot, ← r.get Verdict.slot⟩

end FileAnswer

def statuses : StatusTable :=
  [("Preparing", .queued), ("Queueing", .queued), ("Processing", .running),
    ("Success", .succeeded), ("Fail", .failed "task failed")]

end Hailuo

namespace OpenAi

/-- A video, which answers requests for a task and questions about it alike. -/
structure Video where
  id : String
  status : String
  progress : Option Nat
  size : Option String
  seconds : Option String
  error : Option ErrorObject
deriving DecidableEq, Repr

namespace Video

def idSlot : Slot String := .text "id"
def statusSlot : Slot String := .text "status"
def progressSlot : Slot (Option Nat) := .optional ["progress"] .word8
def sizeSlot : Slot (Option String) := .optional ["size"] .string
def secondsSlot : Slot (Option String) := .optional ["seconds"] .string

def fields : List Document.Field :=
  [idSlot.field, statusSlot.field, progressSlot.field, sizeSlot.field, secondsSlot.field,
    ErrorObject.slot.field]

def read : Reading Video := fun d => do
  let r ← Record.ofDocument fields d
  pure {
    id := ← r.get idSlot
    status := ← r.get statusSlot
    progress := ← r.get progressSlot
    size := ← r.get sizeSlot
    seconds := ← r.get secondsSlot
    error := ← r.get ErrorObject.slot }

def empty : Video := ⟨"", "", none, none, none, none⟩

def vendorError? (v : Video) : Option VendorError :=
  v.error.bind ErrorObject.vendorError?

def acceptance (v : Video) : Acceptance :=
  ⟨v.id, v.vendorError?⟩

/-- The state of the task, whose video is fetched from `url` of its id. -/
def poll (url : String → String) (v : Video) : Poll where
  status := v.status
  error := v.vendorError?
  resultUrl := if v.id.isEmpty then none else some (url v.id)
  secondaryUrl := none
  progress := v.progress
  usage := none

end Video

def statuses : StatusTable :=
  [("queued", .queued), ("in_progress", .running), ("completed", .succeeded),
    ("failed", .failed "task failed"), ("cancelled", .failed "task cancelled")]

end OpenAi

namespace Vendor

/-- The code under which errors of the vendor are shown. -/
def errorCode : Vendor → String
  | .doubao => "doubao_api_error"
  | .hailuo => "hailuo_api_error"
  | .openAi => "openai_api_error"

def statuses : Vendor → StatusTable
  | .doubao => Doubao.statuses
  | .hailuo => Hailuo.statuses
  | .openAi => OpenAi.statuses

def readAcceptance : Vendor → Reading Acceptance
  | .doubao => fun d => (Doubao.Submission.read d).map Doubao.Submission.acceptance
  | .hailuo => fun d => (Hailuo.Submission.read d).map Hailuo.Submission.acceptance
  | .openAi => fun d => (OpenAi.Video.read d).map OpenAi.Video.acceptance

end Vendor

end VideoGateway

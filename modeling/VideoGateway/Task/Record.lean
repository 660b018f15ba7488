import VideoGateway.Generation.Params
import VideoGateway.Task.Outcome
import VideoGateway.Time.Instant

/-!
# Tasks

The record of a video that a vendor was asked for. Outcomes of status queries
move it on; a finished task stays as it is, and the progress of an unfinished
one never falls.
-/
namespace VideoGateway

/-- The record of one video. -/
structure Task where
  id : String
  channelId : Nat
  action : Action
  model : String
  status : TaskStatus
  progress : Nat
  params : Params
  billingRatio : Binary64
  /-- What the vendor answered last. -/
  data : Json
  resultUrl : Option String
  secondaryUrl : Option String
  /-- The key of the stored copy. -/
  storageKey : Option String
  storageUrl : Option String
  failReason : Option String
  usage : Option Usage
  createdAt : Instant
  updatedAt : Instant
  finishedAt : Option Instant

namespace Task

/-- The record of a task that a vendor has accepted. -/
def submitted (id : String) (channelId : Nat) (action : Action) (params : Params)
    (billingRatio : Binary64) (data : Json) (now : Instant) : Task where
  id := id
  channelId := channelId
  action := action
  model := params.model
  status := .queued
  progress := 0
  params := params
  billingRatio := billingRatio
  data := data
  resultUrl := none
  secondaryUrl := none
  storageKey := none
  storageUrl := none
  failReason := none
  usage := none
  createdAt := now
  updatedAt := now
  finishedAt := none

def isFinal (t : Task) : Bool := t.status.isFinal

/-- Where the store keeps the record. -/
def key (t : Task) : Nat × String := (t.channelId, t.id)

/-- The record with an outcome. What the outcome does not tell stays. -/
def advanced (t : Task) (o : Outcome) (data : Json) (now : Instant) : Task :=
  { t with
    status := o.status
    progress := if o.status.isFinal then o.progress else max t.progress o.progress
    data := data
    resultUrl := o.url <|> t.resultUrl
    secondaryUrl := o.secondaryUrl <|> t.secondaryUrl
    failReason := o.reason <|> t.failReason
    usage := o.usage <|> t.usage
    updatedAt := now
    finishedAt := if o.status.isFinal then some now else t.finishedAt }

/-- The record after an outcome, when the task may take its status. -/
def advance? (t : Task) (o : Outcome) (data : Json) (now : Instant) : Option Task :=
  if t.status.mayBecome o.status then some (t.advanced o data now) else none

def withStored (t : Task) (key url : String) : Task :=
  { t with storageKey := some key, storageUrl := some url }

/-- Where the video is: the stored copy before the vendor's. -/
def deliveryUrl (t : Task) : Option String :=
  t.storageUrl <|> t.resultUrl

end Task

end VideoGateway

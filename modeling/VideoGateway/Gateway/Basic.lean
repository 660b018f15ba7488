import VideoGateway.Gateway.Download
import VideoGateway.Gateway.Error
import VideoGateway.Vendor.Exchange

/-!
# The gateway

A request for a video is checked, priced and handed on to the vendor that serves
its model; the task is then asked about until it is finished, and its video is
copied to the bucket if there is one. What is shown of a task points to the copy
as long as the copy is there.
-/
namespace VideoGateway

/-- What a gateway is set up with. -/
structure Gateway where
  /-- The keys of clients; none stand for an open gateway. -/
  keys : List String
  registry : Registry
  storage : Option Storage
  retries : Http.RetryPolicy

/-- What a client is told of an accepted request. -/
structure Receipt where
  taskId : String
  model : String
  action : Action
  billingRatio : Binary64
deriving DecidableEq

namespace Attempt

def ofTask (r : Except TaskError α) : Attempt GatewayError α :=
  Attempt.ofExcept .task r

end Attempt

namespace Gateway

/-- Makes a call for the task pipeline, unless it was cancelled. -/
def callUnless (cancelled : Bool) (c : Http.Call) : Attempt TaskError Http.Reply :=
  if cancelled then throw .cancelled else Attempt.effect (.call c)

/-- The task that the reply to a submission stands for. -/
def acceptedTask (v : Vendor) : Http.Reply → Except TaskError AcceptedTask
  | .error failure => .error (.ofSendFailure failure)
  | .ok response =>
    if response.complete then v.accepted response.status response.body
    else .error .interruptedBody

/-- Checks a request, hands it on and records the task. Nothing is recorded
unless the vendor accepts it. -/
def submit (g : Gateway) (r : Request) (cancelled : Bool) (now : Instant) :
    Attempt GatewayError Receipt := do
  let (channel, model) ← Attempt.ofTask (g.registry.resolve r.model)
  let (action, params) ← Attempt.ofTask (channel.vendor.prepare { r with model := model })
  let rules ← Attempt.effect .priceRules
  let ratio := rules.ratio params.model params.billing
  let payload ← Attempt.ofTask (channel.vendor.payload params)
  let call ← Attempt.ofTask (channel.submitCall payload)
  let reply ← (callUnless cancelled call).mapError .task
  let accepted ← Attempt.ofTask (acceptedTask channel.vendor reply)
  let task := Task.submitted accepted.id channel.id action params ratio accepted.data now
  match ← Attempt.effect (.insertTask task) with
  | .error e => throw (.store e)
  | .ok () => pure ⟨task.id, task.model, action, ratio⟩

def ask (cancelled : Bool) (call : Except TaskError Http.Call) : Attempt TaskError Bytes := do
  let call ← Attempt.ofExcept id call
  let reply ← callUnless cancelled call
  Attempt.ofExcept id (Channel.bodyOf reply)

/-- The vendor's answer to the question how a task is going on, with the address
of the video. One vendor tells the address in the answer to a second question. -/
def fetchStatus (c : Channel) (taskId : String) (cancelled : Bool) : Attempt TaskError Bytes := do
  let body ← ask cancelled (c.statusCall taskId)
  match c.vendor with
  | .doubao | .openAi => pure body
  | .hailuo =>
    match Hailuo.fileToFind? body with
    | none => pure body
    | some fileId =>
      let answer ← ask cancelled (c.fileCall fileId)
      let url ← Attempt.ofExcept id (Hailuo.downloadUrl fileId answer)
      pure (Hailuo.withVideoUrl body url)

def channelOf (g : Gateway) (t : Task) : Except GatewayError Channel :=
  match g.registry.byId? t.channelId with
  | some channel => .ok channel
  | none => .error (.unknownChannel t.channelId)

/-- The task with a copy of its video, if copies are made and this one can be. -/
def withCopy (g : Gateway) (t : Task) (now : Instant) : Program Task :=
  match g.storage.filter (·.autoUpload), t.resultUrl with
  | some storage, some url => do
    match ← (storage.copyVideo g.retries url t.id now).run with
    | .ok stored => pure (t.withStored stored.key stored.url)
    | .error _ => pure t
  | _, _ => pure t

/-- What the vendor tells about a task: the outcome, and the answer to be kept. -/
def report (g : Gateway) (t : Task) (cancelled : Bool) : Attempt GatewayError (Outcome × Json) := do
  let channel ← Attempt.ofExcept id (g.channelOf t)
  let body ← (fetchStatus channel t.id cancelled).mapError .task
  let outcome ← Attempt.ofTask (channel.outcome body)
  pure (outcome, rawValue body)

/-- Records what has become of a task. -/
def keep (t : Task) : Attempt GatewayError Task := do
  match ← Attempt.effect (.updateTask t) with
  | .error e => throw (.store e)
  | .ok () => pure t

/-- Asks the vendor about an unfinished task and moves the task on. -/
def follow (g : Gateway) (t : Task) (cancelled : Bool) (now : Instant) :
    Attempt GatewayError Task := do
  let (outcome, data) ← g.report t cancelled
  match t.advance? outcome data now with
  | none => pure t
  | some t =>
    let t ← ExceptT.lift (if t.status = .success then g.withCopy t now else pure t)
    keep t

/-- Asks about a task unless it is finished. A failure leaves the task as it
was. -/
def poll (g : Gateway) (channelId : Nat) (taskId : String) (cancelled : Bool) (now : Instant) :
    Attempt GatewayError Task := do
  match ← Attempt.effect (.getTask channelId taskId) with
  | none => throw (.unknownTaskOn channelId taskId)
  | some task => if task.isFinal then pure task else g.follow task cancelled now

def timedOut : Outcome :=
  .failure "task timed out"

/-- Ends the tasks among those given that at an instant are older than a time in
nanoseconds. Gives their number. -/
def expireAll (asOf : Instant) (timeout : Int) (now : Instant) :
    List Task → Attempt GatewayError Nat
  | [] => pure 0
  | t :: ts =>
    if asOf.since t.createdAt ≤ timeout then expireAll asOf timeout now ts
    else
      match t.advance? timedOut t.data now with
      | none => expireAll asOf timeout now ts
      | some t => do
        let _ ← keep t
        let n ← expireAll asOf timeout now ts
        pure (n + 1)

/-- Ends all unfinished tasks that at an instant are older than a time in
nanoseconds. -/
def expire (asOf : Instant) (timeout : Int) (now : Instant) : Attempt GatewayError Nat := do
  let tasks ← Attempt.effect .unfinishedTasks
  expireAll asOf timeout now tasks

/-- Asks about each of some tasks. A failure of one does not stop the others. -/
def pollAll (g : Gateway) (cancelled : Bool) (now : Instant) : List Task → Program Unit
  | [] => pure ()
  | t :: ts => do
    let _ ← (g.poll t.channelId t.id cancelled now).run
    pollAll g cancelled now ts

def longestTimeout : Int := Word.greatestSigned64 * Instant.perMillisecond

def timeoutOfSeconds (seconds : Nat) : Int :=
  min (seconds * Instant.perSecond) longestTimeout

/-- One pass over the unfinished tasks: those that take too long are ended, the
others are asked about. -/
def pollPass (g : Gateway) (timeout : Int) (cancelled : Bool) (now : Instant) : Program Unit := do
  let _ ← (expire now timeout now).run
  let tasks ← Program.effect .unfinishedTasks
  g.pollAll cancelled now tasks

def find (taskId : String) : Attempt GatewayError Task := do
  match ← Attempt.effect (.findTask taskId) with
  | some task => pure task
  | none => throw (.unknownTask taskId)

/-- The task with the present link to its copy, or with none if the copy has
gone. The link stays when the bucket does not tell. -/
def refreshed (g : Gateway) (t : Task) : Program Task :=
  match t.storageKey, g.storage with
  | some key, some storage => do
    match ← (storage.location.storedLink key).run with
    | .ok link => pure { t with storageUrl := link }
    | .error _ => pure t
  | _, _ => pure t

def documentOf (g : Gateway) (t : Task) : VideoDocument :=
  match g.registry.byId? t.channelId with
  | some channel => channel.document t
  | none => .ofTask t

def document (g : Gateway) (taskId : String) : Attempt GatewayError VideoDocument := do
  let task ← find taskId
  let task ← ExceptT.lift (g.refreshed task)
  pure (g.documentOf task)

end Gateway

end VideoGateway

import VideoGateway.Gateway.Basic

/-!
# Serving videos

The octets of a finished video are passed on from where they are: the stored
copy if there is one, the vendor otherwise. Clients are redirected to a stored
copy that a domain serves.
-/
namespace VideoGateway

inductive ContentError where
  | missingTaskId
  | unknownTask
  | unfinished (status : TaskStatus)
  | unknownChannel
  | noAddress
  | unusableLink
  | unreachable
  | refused (status : Http.Status)
deriving DecidableEq, Repr

namespace ContentError

def message : ContentError → String
  | .missingTaskId => "task_id is required"
  | .unknownTask => "Task not found"
  | .unfinished status => "Task is not completed yet, current status: " ++ status.text
  | .unknownChannel => "Failed to retrieve channel information"
  | .noAddress => "Task has no video url"
  | .unusableLink => "Stored video url is not a valid header"
  | .unreachable => "Failed to fetch video content"
  | .refused status => "Upstream service returned status " ++ Text.natText status.code

def status : ContentError → Http.Status
  | .missingTaskId | .unfinished _ => .badRequest
  | .unknownTask => .notFound
  | .unreachable | .refused _ => .badGateway
  | .unknownChannel | .noAddress | .unusableLink => .internalServerError

def errorType : ContentError → String
  | .missingTaskId | .unfinished _ | .unknownTask => "invalid_request_error"
  | .unreachable | .refused _ | .unknownChannel | .noAddress | .unusableLink => "server_error"

def response (e : ContentError) : Http.Response :=
  .ofJson e.status
    (.object [("error", .object [("message", .str e.message), ("type", .str e.errorType)])])

end ContentError

namespace Gateway

/-- Where a video is fetched from, or where clients are sent. -/
inductive ContentPlace where
  | redirect (link : String)
  | fetch (call : Http.Call)

/-- The place of the video of a finished task whose link to the copy is up to
date. -/
def contentPlace (g : Gateway) (c : Channel) (t : Task) : Except ContentError ContentPlace :=
  match t.storageUrl with
  | some link =>
    if (g.storage.bind (·.redirectDomain)).isSome then .ok (.redirect link)
    else .ok (.fetch (.get link []))
  | none =>
    match c.contentCall? t with
    | some call => .ok (.fetch call)
    | none => .error .noAddress

def forwardedHeaders : List String :=
  ["content-type", "content-length", "content-disposition", "etag", "last-modified"]

def forwarded (r : Http.Response) : Http.Response where
  status := .ok
  headers :=
    (forwardedHeaders.filterMap fun name => (r.headers.get? name).map fun value => (name, value)) ++
      [("cache-control", Http.HeaderValue.ofAscii "public, max-age=86400")]
  body := r.body
  complete := r.complete

def redirection (link : String) : Except ContentError Http.Response :=
  match Http.HeaderValue.ofText? link with
  | some location => .ok ⟨.found, [("location", location)], [], true⟩
  | none => .error .unusableLink

/-- Passes on what a reply brings, if it brings the video. -/
def ofContentReply : Http.Reply → Except ContentError Http.Response
  | .error _ => .error .unreachable
  | .ok response =>
    if response.status = .ok then .ok (forwarded response) else .error (.refused response.status)

def content (g : Gateway) (taskId : String) : Attempt ContentError Http.Response := do
  if Text.isBlankText taskId then throw .missingTaskId
  match ← Attempt.effect (.findTask taskId) with
  | none => throw .unknownTask
  | some task =>
    if task.status != .success then throw (.unfinished task.status)
    match g.registry.byId? task.channelId with
    | none => throw .unknownChannel
    | some channel =>
      let task ← ExceptT.lift (g.refreshed task)
      match ← Attempt.ofExcept id (g.contentPlace channel task) with
      | .redirect link => Attempt.ofExcept id (redirection link)
      | .fetch call =>
        let reply ← ExceptT.lift (g.retries.download call)
        Attempt.ofExcept id (ofContentReply reply)

end Gateway

end VideoGateway

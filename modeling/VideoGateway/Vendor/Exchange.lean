import VideoGateway.Channel.Registry
import VideoGateway.Http.Message
import VideoGateway.Task.Record
import VideoGateway.Vendor.Answer
import VideoGateway.Vendor.Display
import VideoGateway.Vendor.Payload

/-!
# Calls to vendors

Which calls a channel makes and what their answers mean. Every call carries the
key of the channel, apart from downloads from addresses that the vendor gives
out for anyone.
-/
namespace VideoGateway

/-- A body as a JSON value. One that is none is kept as a text. -/
def rawValue (body : Bytes) : Json :=
  (Json.parse? body).getD (.str (Text.Utf8.decodeLossy body))

/-- Reads a body that a vendor has to send in JSON. -/
def readBody (read : Document.Reading α) (body : Bytes) : Except TaskError α :=
  match Document.readText read body with
  | .ok a => .ok a
  | .error fault => .error (.unreadableBody fault (Text.Utf8.decodeLossy body))

namespace TaskError

def ofSendFailure (f : Http.SendFailure) : TaskError :=
  transport (if f = .timedOut then "request_timeout" else "do_request_failed") f.text

def interruptedBody : TaskError :=
  transport "read_response_body_failed" "the response ended too early"

end TaskError

structure AcceptedTask where
  id : String
  data : Json

namespace Vendor

def submitPath : Vendor → String
  | .doubao => "/api/v3/contents/generations/tasks"
  | .hailuo => "/v1/video_generation"
  | .openAi => "/v1/videos"

/-- What an answer to a request for a task means. A refusal is shown in the
vendor's words if it has any, and as it is otherwise. -/
def accepted (v : Vendor) (status : Http.Status) (body : Bytes) : Except TaskError AcceptedTask :=
  let text := Text.Utf8.decodeLossy body
  if status.isSuccess then
    match readBody v.readAcceptance body with
    | .error e => .error e
    | .ok answer =>
      match answer.error with
      | some e => .error (.vendor v.errorCode e.text status)
      | none =>
        if Text.isBlankText answer.taskId then .error (.missingTaskId text)
        else .ok ⟨answer.taskId, rawValue body⟩
  else
    let told := (Document.readText v.readAcceptance body).toOption.bind (·.error)
    .error (.vendor v.errorCode ((told.map VendorError.text).getD text) status)

end Vendor

namespace Channel

/-- The header value that carries the key of a channel. -/
def bearer (key : String) : Except TaskError Bytes :=
  match Http.HeaderValue.ofText? ("Bearer " ++ key) with
  | some value => .ok value
  | none => .error .unusableKey

/-- The header fields of every call that carries the key. -/
def headers (c : Channel) : Except TaskError Http.Headers := do
  let authorization ← bearer c.key
  let json := Http.HeaderValue.applicationJson
  pure <| match c.vendor with
    | .doubao => [("content-type", json), ("accept", json), ("authorization", authorization)]
    | .hailuo | .openAi => [("content-type", json), ("authorization", authorization)]

def submitUrl (c : Channel) : String :=
  endpoint c.baseUrl c.vendor.submitPath

def submitCall (c : Channel) (payload : Json) : Except TaskError Http.Call := do
  let headers ← c.headers
  pure (.post c.submitUrl headers payload)

def contentUrl (c : Channel) (id : String) : String :=
  endpoint c.baseUrl (OpenAi.contentPath id)

def statusCall (c : Channel) (id : String) : Except TaskError Http.Call := do
  let headers ← c.headers
  pure <| match c.vendor with
    | .doubao | .openAi => .get (endpoint c.baseUrl (c.vendor.submitPath ++ "/" ++ id)) headers
    | .hailuo =>
      { Http.Call.get (endpoint c.baseUrl "/v1/query/video_generation") headers with
        query := [("task_id", id)] }

def fileCall (c : Channel) (fileId : String) : Except TaskError Http.Call := do
  let headers ← c.headers
  pure { Http.Call.get (endpoint c.baseUrl "/v1/files/retrieve") headers with
    query := [("file_id", fileId)] }

/-- The body of an answer to a question. A vendor that is overloaded or broken
is asked again later. -/
def bodyOf : Http.Reply → Except TaskError Bytes
  | .error failure => .error (.ofSendFailure failure)
  | .ok response =>
    if !response.complete then .error .interruptedBody
    else if response.status = .tooManyRequests || response.status.isServerError then
      .error (.statusQueryRefused response.status)
    else .ok response.body

/-- The answer to a status question, in terms common to all vendors. -/
def readPoll (c : Channel) (body : Bytes) : Except TaskError Poll :=
  match c.vendor with
  | .doubao => (readBody Doubao.Report.read body).map Doubao.Report.poll
  | .hailuo => (readBody Hailuo.Report.read body).map Hailuo.Report.poll
  | .openAi => (readBody OpenAi.Video.read body).map (OpenAi.Video.poll c.contentUrl)

def outcome (c : Channel) (body : Bytes) : Except TaskError Outcome := do
  let poll ← c.readPoll body
  c.vendor.statuses.interpret poll

/-- The call that fetches a finished video from the vendor. -/
def contentCall? (c : Channel) (t : Task) : Option Http.Call :=
  match c.vendor with
  | .doubao | .hailuo => t.resultUrl.map fun url => .get url []
  | .openAi =>
    (bearer c.key).toOption.map fun authorization =>
      .get (t.resultUrl.getD (c.contentUrl t.id)) [("authorization", authorization)]

end Channel

namespace Hailuo

/-- The file to look up before a status answer is complete: that of a task that
succeeded without an error. -/
def fileToFind? (body : Bytes) : Option String :=
  match Document.readText Report.read body with
  | .error _ => none
  | .ok report =>
    if statuses.lookup? report.status = some .succeeded ∧ !report.fileId.isEmpty ∧
        report.verdict.vendorError?.isNone then
      some report.fileId
    else none

def downloadUrl (fileId : String) (body : Bytes) : Except TaskError String := do
  let answer ← readBody FileAnswer.read body
  match answer.verdict.vendorError? with
  | some e => .error (.vendor Vendor.hailuo.errorCode e.text .badGateway)
  | none =>
    if answer.downloadUrl.isEmpty then .error (.missingDownloadUrl fileId)
    else .ok answer.downloadUrl

/-- A status answer with the address of the video put in. -/
def withVideoUrl (body : Bytes) (url : String) : Bytes :=
  match (Json.parse? body).getD (.object []) with
  | .obj members => Json.bytes (.obj (Json.Members.insert "video_url" (.str url) members))
  | other => Json.bytes other

end Hailuo

end VideoGateway

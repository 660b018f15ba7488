import VideoGateway.Http.Status
import VideoGateway.Json.Document

/-!
# Failures of the task pipeline

A failure is of one of four kinds, which decides its HTTP status, its error type
and whether trying again later makes sense. Its code names the cause.
-/
namespace VideoGateway

/-- Who is at fault for a failure. -/
inductive TaskError.Kind where
  /-- The request is malformed or unsupported, and nothing was sent. -/
  | validation
  /-- The vendor reports an error. -/
  | vendor
  /-- The network, a time limit or a cancellation. -/
  | transport
  /-- The vendor's answer has an unexpected shape. -/
  | parse
deriving DecidableEq, Repr

/-- A failure of the task pipeline. -/
structure TaskError where
  kind : TaskError.Kind
  code : String
  message : String
  status : Http.Status
deriving DecidableEq, Repr

namespace TaskError

def Kind.errorType : Kind → String
  | .validation => "invalid_request_error"
  | .vendor | .transport => "upstream_error"
  | .parse => "server_error"

def validation (code message : String) : TaskError :=
  ⟨.validation, code, message, .badRequest⟩

/-- An error that the vendor reports. Within a successful answer it counts as a
bad gateway; otherwise the answer's status stands. -/
def vendor (code message : String) (status : Http.Status) : TaskError :=
  ⟨.vendor, code, message, if status.isSuccess then .badGateway else status⟩

def transport (code message : String) : TaskError :=
  ⟨.transport, code, message, .badGateway⟩

def parse (code message : String) : TaskError :=
  ⟨.parse, code, message, .internalServerError⟩

/-- Only failures of the transport may pass by themselves. -/
def isRetryable (e : TaskError) : Bool :=
  e.kind == .transport

def text (e : TaskError) : String :=
  e.code ++ ": " ++ e.message

def missingModel : TaskError :=
  validation "invalid_request" "The request body must include a model"

/-- The request has neither a prompt nor an image. -/
def missingPrompt : TaskError :=
  validation "invalid_request" "prompt is required when no image is provided"

/-- The model takes none of the images, and there is no prompt. -/
def imagesNotAccepted (model : String) : TaskError :=
  validation "invalid_request"
    ("prompt is required: " ++ model ++ " accepts none of the supplied images")

def unsupportedAction (vendor action : String) : TaskError :=
  validation "unsupported_action" (vendor ++ " does not support " ++ action)

/-- The channel key cannot be sent in a header. -/
def unusableKey : TaskError :=
  validation "invalid_channel_key" "channel API key is not a valid header"

def unknownModel (model : String) : TaskError :=
  validation "model_not_found" ("no video channel serves model '" ++ model ++ "'")

def channelNotConfigured (vendor : String) : TaskError :=
  validation "channel_not_configured" (vendor ++ " channel is not configured")

def cancelled : TaskError :=
  transport "request_cancelled" "request was cancelled before the upstream answered"

/-- An answer is not what the vendor promises; `body` is its text. -/
def unreadableBody (fault : Document.Fault) (body : String) : TaskError :=
  parse "unmarshal_response_body_failed" (fault.text ++ "; body: " ++ body)

def missingTaskId (body : String) : TaskError :=
  parse "invalid_response" ("task_id is empty, response: " ++ body)

def missingResultUrl (status : String) : TaskError :=
  parse "missing_result_url" ("task reported '" ++ status ++ "' without a result url")

def missingDownloadUrl (fileId : String) : TaskError :=
  parse "invalid_response" ("file " ++ fileId ++ " has no download_url")

/-- The vendor refuses status queries for the moment. -/
def statusQueryRefused (status : Http.Status) : TaskError :=
  transport "fetch_task_failed" ("upstream returned " ++ status.text)

end TaskError

end VideoGateway

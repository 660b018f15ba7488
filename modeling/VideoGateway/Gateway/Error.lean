import VideoGateway.Http.Message
import VideoGateway.Storage.Error
import VideoGateway.Task.Store

/-!
# Failures of the gateway

Why a request to the gateway fails, and the response that clients get then.
-/
namespace VideoGateway

inductive GatewayError where
  | unauthorized (message : String)
  | badRequest (message : String)
  | notFound (message : String)
  | task (e : TaskError)
  | store (e : StoreError)
  | storage (e : StorageError)
  | internal (message : String)
deriving DecidableEq, Repr

namespace GatewayError

def text : GatewayError → String
  | .unauthorized message => "Unauthorized: " ++ message
  | .badRequest message => "Bad request: " ++ message
  | .notFound message => "Not found: " ++ message
  | .task e => e.text
  | .store e => "Task store error: " ++ e.text
  | .storage e => "Storage error: " ++ e.text
  | .internal message => "Internal error: " ++ message

/-- The message that clients see. -/
def message : GatewayError → String
  | .unauthorized message | .badRequest message | .notFound message | .internal message => message
  | .task e => e.message
  | .store e => e.text
  | .storage e => e.text

def status : GatewayError → Http.Status
  | .unauthorized _ => .unauthorized
  | .badRequest _ => .badRequest
  | .notFound _ => .notFound
  | .task e => e.status
  | .store _ | .storage _ | .internal _ => .internalServerError

def errorType : GatewayError → String
  | .unauthorized _ => "authentication_error"
  | .badRequest _ | .notFound _ => "invalid_request_error"
  | .task e => e.kind.errorType
  | .store _ | .storage _ | .internal _ => "server_error"

def code? : GatewayError → Option String
  | .task e => some e.code
  | _ => none

def body (e : GatewayError) : Json :=
  .object [("error", .object [
    ("message", .str e.message),
    ("type", .str e.errorType),
    ("param", .null),
    ("code", .option .str e.code?)])]

def unknownTask (taskId : String) : GatewayError :=
  .notFound ("task " ++ taskId ++ " not found")

def unknownTaskOn (channelId : Nat) (taskId : String) : GatewayError :=
  .notFound ("task " ++ taskId ++ " not found on channel " ++ Text.natText channelId)

def unknownChannel (channelId : Nat) : GatewayError :=
  .internal ("channel " ++ Text.natText channelId ++ " is no longer configured")

end GatewayError

namespace Http.Response

def ofJson (status : Status) (v : Json) : Response :=
  ⟨status, [("content-type", HeaderValue.applicationJson)], v.bytes, true⟩

def empty (status : Status) : Response :=
  ⟨status, [], [], true⟩

end Http.Response

namespace GatewayError

def response (e : GatewayError) : Http.Response :=
  .ofJson e.status e.body

end GatewayError

end VideoGateway

import VideoGateway.Gateway.Access
import VideoGateway.Gateway.Content
import VideoGateway.Http.MediaType

/-!
# The gateway's own interface

Which requests the gateway answers, and how. A request for a path that is not
known is answered with 404, one with a method that the path does not take with
405 and the methods that it takes. Every origin may use the interface.
-/
namespace VideoGateway

namespace Body

def maxLength : Nat := 2 * 1024 * 1024

/-- Why a body is not read. -/
inductive Fault where
  /-- The content type is not that of JSON. -/
  | contentType
  | tooLong
  | json (fault : Document.Fault)
deriving DecidableEq, Repr

def Fault.text : Fault → String
  | .contentType => "Expected request with \x60Content-Type: application/json\x60"
  | .tooLong => "Failed to buffer the request body: length limit exceeded"
  | .json .mismatch =>
    "Failed to deserialize the JSON body into the target type: " ++ Document.Fault.mismatch.text
  | .json .malformed =>
    "Failed to parse the request body as JSON: " ++ Document.Fault.malformed.text

def announcesJson (headers : Http.Headers) : Bool :=
  (((headers.get? "content-type").bind Http.HeaderValue.toText?).bind Http.MediaType.ofText?).any
    Http.MediaType.isJson

/-- Reads the value at the beginning of a body. -/
def read (reading : Document.Reading α) (r : Http.Request) : Except Fault α :=
  if !announcesJson r.headers then .error .contentType
  else if maxLength < r.body.length then .error .tooLong
  else (reading (Document.ofText r.body).1).mapError .json

end Body

namespace Gateway

def modelEntry (vendor : String) (d : Descriptor) : Json :=
  .object [
    ("id", .str d.name),
    ("object", .str "model"),
    ("owned_by", .str vendor),
    ("kind", .str d.kind.text),
    ("durations", .arr (d.durations.map .nat)),
    ("default_duration", .nat d.defaultDuration),
    ("resolutions", .arr (d.resolutions.map .str)),
    ("default_resolution", .str d.defaultResolution),
    ("ratios", .arr (d.ratios.map .str)),
    ("supports_first_frame", .bool d.firstFrame),
    ("supports_last_frame", .bool d.lastFrame),
    ("max_reference_images", .nat d.maxReferenceImages),
    ("supports_audio", .bool d.audio)]

def modelList (g : Gateway) : Json :=
  .object [
    ("object", .str "list"),
    ("data", .arr (g.registry.flatMap fun channel =>
      let table := channel.vendor.capabilities
      table.modelNames.map fun name => modelEntry table.vendor (table.descriptor name)))]

/-- A rule whose ratio is not fit for a price. -/
def unsoundRule (r : PriceRule) : GatewayError :=
  .badRequest ("ratio for " ++ r.model ++ " " ++ r.key ++ "=" ++ r.value ++
    " must be a non-negative number")

def handleSubmit (g : Gateway) (r : Http.Request) (cancelled : Bool) (now : Instant) :
    Attempt GatewayError Json := do
  Attempt.ofExcept id (Access.authorize g.keys r.headers)
  let request ← Attempt.ofExcept (fun _ => .badRequest "Invalid JSON request body")
    (Body.read Request.read r)
  let receipt ← g.submit request cancelled now
  pure (.object [("task_id", .str receipt.taskId)])

def handleTask (g : Gateway) (r : Http.Request) (taskId : String) : Attempt GatewayError Json := do
  Attempt.ofExcept id (Access.authorize g.keys r.headers)
  let document ← g.document taskId
  pure document.toJson

def handleModels (g : Gateway) (r : Http.Request) : Attempt GatewayError Json := do
  Attempt.ofExcept id (Access.authorize g.keys r.headers)
  pure g.modelList

def handleGetRules (g : Gateway) (r : Http.Request) : Attempt GatewayError Json := do
  Attempt.ofExcept id (Access.authorize g.keys r.headers)
  let rules ← Attempt.effect .priceRules
  pure rules.toJson

/-- Replaces all price rules, if each of them has a ratio that is fit for a
price. -/
def handlePutRules (g : Gateway) (r : Http.Request) : Attempt GatewayError Json := do
  Attempt.ofExcept id (Access.authorize g.keys r.headers)
  let rules ← Attempt.ofExcept
    (fun (fault : Body.Fault) => .badRequest ("Invalid param ratio config: " ++ fault.text))
    (Body.read PriceRules.read r)
  match rules.unsound? with
  | some rule => throw (unsoundRule rule)
  | none =>
    Attempt.effect (.setPriceRules rules)
    let rules ← Attempt.effect .priceRules
    pure rules.toJson

/-- What a path stands for. A name in a path may fail to be a text. -/
inductive Route where
  | root
  | health
  | models
  | submissions
  | task (id : Option String)
  | content (id : Option String)
  | priceRules
deriving DecidableEq, Repr

/-- The route of a target, which is a path and a query. A name at the end of a
path is not empty. -/
def Route.ofTarget? (target : String) : Option Route :=
  match Text.split '/' (String.ofList (target.toList.takeWhile (· != '?'))) with
  | ["", ""] => some .root
  | ["", "healthz"] => some .health
  | ["", "v1", "models"] => some .models
  | ["", "v1", "video", "generations"] => some .submissions
  | ["", "v1", "video", "generations", name] =>
    if name.isEmpty then none else some (.task (Text.Percent.decode? name))
  | ["", "v1", "videos", name, "content"] => some (.content (Text.Percent.decode? name))
  | ["", "api", "param_ratio"] => some .priceRules
  | _ => none

def Route.allowed : Route → String
  | .submissions => "POST"
  | .priceRules => "GET,HEAD,PUT"
  | _ => "GET,HEAD"

/-- The response of an attempt to answer with a JSON value. -/
def respond (a : Attempt GatewayError Json) : Program Http.Response := do
  match ← a.run with
  | .ok v => pure (.ofJson .ok v)
  | .error e => pure e.response

def methodNotAllowed (route : Route) : Http.Response :=
  ⟨.methodNotAllowed, [("allow", Http.HeaderValue.ofAscii route.allowed)], [], true⟩

/-- The response to a name that is not a text. -/
def badNameResponse : Http.Response :=
  ⟨.badRequest, [("content-type", Http.HeaderValue.ofAscii "text/plain; charset=utf-8")],
    Text.Utf8.encode "Invalid URL: Invalid UTF-8 in \x60task_id\x60", true⟩

def withoutBody (r : Http.Response) : Http.Response :=
  { r with body := [] }

def answer (g : Gateway) (route : Route) (r : Http.Request) (cancelled : Bool) (now : Instant) :
    Program Http.Response :=
  match route, r.method with
  | .submissions, .post => respond (g.handleSubmit r cancelled now)
  | .priceRules, .put => respond (g.handlePutRules r)
  | .submissions, _ => pure (methodNotAllowed route)
  | route, .get => answerGet route
  | route, .head => withoutBody <$> answerGet route
  | route, _ => pure (methodNotAllowed route)
where
  /-- Answers a request that reads what is at a route. -/
  answerGet : Route → Program Http.Response
    | .root =>
      pure (.ofJson .ok (.object [("name", .str "task-gateway"), ("status", .str "ok")]))
    | .health => pure (.ofJson .ok (.object [("status", .str "ok")]))
    | .models => respond (g.handleModels r)
    | .task none | .content none => pure badNameResponse
    | .task (some id) => respond (g.handleTask r id)
    | .content (some id) => do
      match ← (g.content id).run with
      | .ok response => pure response
      | .error e => pure e.response
    | .priceRules => respond (g.handleGetRules r)
    | .submissions => pure (methodNotAllowed route)

/-- Permits every origin to use a response. -/
def forEveryOrigin (r : Http.Response) : Http.Response :=
  { r with headers := r.headers ++ [("access-control-allow-origin", Http.HeaderValue.ofAscii "*")] }

def handle (g : Gateway) (r : Http.Request) (cancelled : Bool) (now : Instant) :
    Program Http.Response :=
  forEveryOrigin <$>
    match r.method, Route.ofTarget? r.target with
    | .options, _ => pure (.empty .ok)
    | _, some route => g.answer route r cancelled now
    | _, none => pure (.empty .notFound)

end Gateway

end VideoGateway

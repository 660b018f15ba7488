import VideoGateway.Task.Record

/-!
# Video documents

What clients are shown of a task. The address of the video is shown when the
task is completed, an error when it failed.
-/
namespace VideoGateway

structure VideoError where
  message : String
  code : Option String
deriving DecidableEq, Repr

/-- What clients are shown of a task. -/
structure VideoDocument where
  id : String
  model : String
  status : TaskStatus
  progress : Nat
  createdAt : Int
  completedAt : Option Int
  url : Option String
  error : Option VideoError
  usage : Option Usage
  metadata : Json.Members

namespace VideoError

def toJson (e : VideoError) : Json :=
  .object (("message", .str e.message) :: Params.entry "code" .str e.code)

end VideoError

namespace VideoDocument

/-- The document of a task, from its record alone. -/
def ofTask (t : Task) : VideoDocument where
  id := t.id
  model := t.model
  status := t.status
  progress := t.progress
  createdAt := t.createdAt.seconds
  completedAt := t.finishedAt.map Instant.seconds
  url := if t.status = .success then t.deliveryUrl else none
  error := if t.status = .failure then t.failReason.map fun reason => ⟨reason, none⟩ else none
  usage := t.usage
  metadata := Json.Members.ofList <|
    [("action", .str t.action.text), ("resolution", .str t.params.resolution),
      ("duration", .nat t.params.duration)] ++
    Params.entry "ratio" .str t.params.ratio ++
    Params.entry "seed" .int t.params.seed ++
    Params.entry "fps" .nat t.params.fps ++
    Params.entry "audio_url" .str t.secondaryUrl

def withMetadata (d : VideoDocument) (entries : List (String × Json)) : VideoDocument :=
  { d with metadata := entries.foldl (fun ms (key, v) => ms.insert key v) d.metadata }

def toJson (d : VideoDocument) : Json :=
  .object <|
    [("id", .str d.id), ("object", .str "video"), ("model", .str d.model),
      ("status", .str d.status.publicText), ("progress", .nat d.progress),
      ("created_at", .int d.createdAt)] ++
    Params.entry "completed_at" .int d.completedAt ++
    Params.entry "url" .str d.url ++
    Params.entry "error" VideoError.toJson d.error ++
    Params.entry "usage" Usage.toJson d.usage ++
    [("metadata", .obj d.metadata)]

end VideoDocument

end VideoGateway

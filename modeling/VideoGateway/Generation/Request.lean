import VideoGateway.Json.Record
import VideoGateway.Task.Error
import VideoGateway.Text.Blank

/-!
# Requests for a video

A request as clients send it, what it asks for, and the checks that no vendor is
needed for. Frame images count before reference images, and images in the
metadata count like those in their own fields.
-/
namespace VideoGateway

/-- What a video is made from. -/
inductive Action where
  | textToVideo
  | imageToVideo
  | referenceToVideo
deriving DecidableEq, Repr

def Action.text : Action → String
  | .textToVideo => "text_to_video"
  | .imageToVideo => "image_to_video"
  | .referenceToVideo => "reference_to_video"

structure Request where
  model : String
  prompt : Option String
  duration : Option Int
  resolution : Option String
  size : Option String
  aspectRatio : Option String
  seed : Option Int
  firstFrame : Option String
  lastFrame : Option String
  images : List String
  generateAudio : Option Bool
  cfgScale : Option Binary64
  fps : Option Int
  metadata : Json.Members

namespace Request

open Document (Slot Reading Fault)

def modelSlot : Slot String := .required "model" .string
def promptSlot : Slot (Option String) := .optional ["prompt"] .string
def durationSlot : Slot (Option Int) := .optional ["duration"] .signed64
def resolutionSlot : Slot (Option String) := .optional ["resolution"] .string
def sizeSlot : Slot (Option String) := .optional ["size"] .string
def aspectRatioSlot : Slot (Option String) := .optional ["aspect_ratio", "ratio"] .string
def seedSlot : Slot (Option Int) := .optional ["seed"] .signed64
def firstFrameSlot : Slot (Option String) := .optional ["first_frame", "first_frame_image"] .string
def lastFrameSlot : Slot (Option String) := .optional ["last_frame", "last_frame_image"] .string
def imagesSlot : Slot (List String) := .defaulted "images" (.list .string) []
def generateAudioSlot : Slot (Option Bool) := .optional ["generate_audio"] .bool
def cfgScaleSlot : Slot (Option Binary64) := .optional ["cfg_scale"] .real
def fpsSlot : Slot (Option Int) := .optional ["fps"] .signed64
def metadataSlot : Slot Json.Members :=
  .defaulted "metadata" (.members (Document.depthLimit - 1)) []

/-- The fields of a request, in the order of a list. -/
def fields : List Document.Field :=
  [modelSlot.field, promptSlot.field, durationSlot.field, resolutionSlot.field, sizeSlot.field,
    aspectRatioSlot.field, seedSlot.field, firstFrameSlot.field, lastFrameSlot.field,
    imagesSlot.field, generateAudioSlot.field, cfgScaleSlot.field, fpsSlot.field,
    metadataSlot.field]

def read : Reading Request := fun d => do
  let r ← Document.Record.ofDocument fields d
  pure {
    model := ← r.get modelSlot
    prompt := ← r.get promptSlot
    duration := ← r.get durationSlot
    resolution := ← r.get resolutionSlot
    size := ← r.get sizeSlot
    aspectRatio := ← r.get aspectRatioSlot
    seed := ← r.get seedSlot
    firstFrame := ← r.get firstFrameSlot
    lastFrame := ← r.get lastFrameSlot
    images := ← r.get imagesSlot
    generateAudio := ← r.get generateAudioSlot
    cfgScale := ← r.get cfgScaleSlot
    fps := ← r.get fpsSlot
    metadata := ← r.get metadataSlot }

def toJson (r : Request) : Json :=
  .object [
    ("model", .str r.model),
    ("prompt", .option .str r.prompt),
    ("duration", .option .int r.duration),
    ("resolution", .option .str r.resolution),
    ("size", .option .str r.size),
    ("aspect_ratio", .option .str r.aspectRatio),
    ("seed", .option .int r.seed),
    ("first_frame", .option .str r.firstFrame),
    ("last_frame", .option .str r.lastFrame),
    ("images", .arr (r.images.map .str)),
    ("generate_audio", .option .bool r.generateAudio),
    ("cfg_scale", .option .real r.cfgScale),
    ("fps", .option .int r.fps),
    ("metadata", .obj r.metadata)]

/-- The trimmed prompt, when it is not blank. -/
def promptText? (r : Request) : Option String :=
  r.prompt.bind Text.nonBlank?

def given (s : Option String) : Bool :=
  match s with
  | some s => !Text.isBlankText s
  | none => false

/-- The metadata keys that may hold a frame image. -/
def frameKeys : List String :=
  ["first_frame_image", "first_frame", "last_frame_image", "last_frame"]

def hasFrameImage (r : Request) : Bool :=
  given r.firstFrame || given r.lastFrame ||
    frameKeys.any fun key => given ((r.metadata.get? key).bind Json.str?)

def hasReferenceImages (r : Request) : Bool :=
  r.images.any fun url => !Text.isBlankText url

def action (r : Request) : Action :=
  if r.hasFrameImage then .imageToVideo
  else if r.hasReferenceImages then .referenceToVideo
  else .textToVideo

/-- The checks that every request has to pass; gives what it asks for. -/
def validate (r : Request) : Except TaskError Action :=
  if Text.isBlankText r.model then .error .missingModel
  else if r.action == .textToVideo && r.promptText?.isNone then .error .missingPrompt
  else .ok r.action

end Request

end VideoGateway

import VideoGateway.Generation.Request

/-!
# Effective parameters

The parameters that a video is made with, after a request is reconciled with the
capabilities of its model. They are what the vendor is asked for and what the
price is computed from, so the two always agree.
-/
namespace VideoGateway

/-- The images that a video is made from. -/
inductive ImageMode where
  | textOnly
  | frames (first last : Option String)
  | reference (images : List String)
deriving DecidableEq, Repr

namespace ImageMode

/-- The name of the mode in price rules. -/
def label : ImageMode → String
  | .textOnly => "text"
  | .frames _ (some _) => "first_last_frame"
  | .frames _ none => "first_frame"
  | .reference _ => "reference"

def firstFrame? : ImageMode → Option String
  | .frames first _ => first
  | _ => none

def lastFrame? : ImageMode → Option String
  | .frames _ last => last
  | _ => none

def referenceImages : ImageMode → List String
  | .reference images => images
  | _ => []

def action : ImageMode → Action
  | .textOnly => .textToVideo
  | .frames _ _ => .imageToVideo
  | .reference _ => .referenceToVideo

def toJson : ImageMode → Json
  | .textOnly => .object [("type", .str "text_only")]
  | .frames first last =>
    .object [("type", .str "frames"), ("first", .option .str first), ("last", .option .str last)]
  | .reference images =>
    .object [("type", .str "reference"), ("images", .arr (images.map .str))]

end ImageMode

/-- The parameters that a video is made with. -/
structure Params where
  model : String
  prompt : Option String
  duration : Nat
  resolution : String
  ratio : Option String
  seed : Option Int
  imageMode : ImageMode
  generateAudio : Option Bool
  cfgScale : Option Binary64
  fps : Option Nat
  /-- Metadata that the vendor gets as it is. -/
  extras : Json.Members

namespace Params

def entry (name : String) (toJson : α → Json) (value : Option α) : List (String × Json) :=
  match value with
  | none => []
  | some a => [(name, toJson a)]

/-- The parameters that price rules see. -/
def billing (p : Params) : Json.Members :=
  Json.Members.ofList <|
    [("resolution", .str p.resolution), ("duration", .nat p.duration)] ++
    entry "ratio" .str p.ratio ++
    [("mode", .str p.imageMode.label)] ++
    entry "generate_audio" .bool p.generateAudio ++
    entry "cfg_scale" .real p.cfgScale ++
    entry "fps" .nat p.fps ++
    entry "seed" .int p.seed

/-- What the video is made from after all. A model that takes none of the images
still needs a prompt. -/
def validate (p : Params) : Except TaskError Action :=
  if p.imageMode.action == .textToVideo && p.prompt.isNone then
    .error (.imagesNotAccepted p.model)
  else .ok p.imageMode.action

def toJson (p : Params) : Json :=
  .object [
    ("model", .str p.model),
    ("prompt", .option .str p.prompt),
    ("duration", .nat p.duration),
    ("resolution", .str p.resolution),
    ("ratio", .option .str p.ratio),
    ("seed", .option .int p.seed),
    ("image_mode", p.imageMode.toJson),
    ("generate_audio", .option .bool p.generateAudio),
    ("cfg_scale", .option .real p.cfgScale),
    ("fps", .option .nat p.fps),
    ("extras", .obj p.extras)]

end Params

end VideoGateway

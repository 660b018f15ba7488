import VideoGateway.Generation.Normalize
import VideoGateway.Vendor.Basic

/-!
# Requests to vendors

What a vendor is asked for, as the JSON value that it receives. Parameters that
have no value are left out. The vendors name them differently: one lists text
and images as items with a role, one has a member for each, and one is told the
size in pixels.
-/
namespace VideoGateway

namespace Doubao

def textItem (text : String) : Json :=
  .object [("type", .str "text"), ("text", .str text)]

/-- An item of an image, with what it is for. -/
def imageItem (role url : String) : Json :=
  .object [("type", .str "image_url"), ("image_url", .object [("url", .str url)]),
    ("role", .str role)]

/-- The prompt, the frames and the reference images, in this order. -/
def content (p : Params) : List Json :=
  p.prompt.toList.map textItem ++
    p.imageMode.firstFrame?.toList.map (imageItem "first_frame") ++
    p.imageMode.lastFrame?.toList.map (imageItem "last_frame") ++
    p.imageMode.referenceImages.map (imageItem "reference_image")

def payload (p : Params) : Json :=
  .object <|
    [("model", .str p.model), ("content", .arr (content p)), ("duration", .nat p.duration),
      ("resolution", .str p.resolution)] ++
    Params.entry "ratio" .str p.ratio ++
    Params.entry "seed" .int p.seed ++
    Params.entry "generate_audio" .bool p.generateAudio ++
    Params.entry "cfg_scale" .real p.cfgScale ++
    Params.entry "fps" .nat p.fps ++
    p.extras

end Doubao

namespace Hailuo

/-- The reference images, as one subject. -/
def subjects (images : List String) : List (String × Json) :=
  match images with
  | [] => []
  | _ :: _ =>
    [("subject_reference",
      .arr [.object [("type", .str "character"), ("image", .arr (images.map .str))]])]

def payload (p : Params) : Json :=
  .object <|
    [("model", .str p.model)] ++
    Params.entry "prompt" .str p.prompt ++
    [("duration", .nat p.duration), ("resolution", .str p.resolution)] ++
    Params.entry "first_frame_image" .str p.imageMode.firstFrame? ++
    Params.entry "last_frame_image" .str p.imageMode.lastFrame? ++
    subjects p.imageMode.referenceImages ++
    p.extras

end Hailuo

namespace OpenAi

/-- The size in pixels of a resolution, upright for the ratio 9:16. -/
def size (resolution : String) (ratio : Option String) : String :=
  let upright := ratio == some "9:16"
  if resolution == "1024p" then
    if upright then "1024x1792" else "1792x1024"
  else if upright then "720x1280" else "1280x720"

def payload (p : Params) (prompt : String) : Json :=
  .object [("model", .str p.model), ("prompt", .str prompt),
    ("seconds", .str (Text.natText p.duration)), ("size", .str (size p.resolution p.ratio))]

end OpenAi

namespace TaskError

/-- The vendor makes videos from a prompt only. -/
def promptRequired : TaskError :=
  validation "invalid_request" "prompt is required for sora models"

end TaskError

namespace Vendor

/-- What a video can be made from. -/
def supportedActions : Vendor → List Action
  | .doubao | .hailuo => [.textToVideo, .imageToVideo, .referenceToVideo]
  | .openAi => [.textToVideo]

def normalize (v : Vendor) (r : Request) : Params :=
  r.normalize (v.capabilities.descriptor r.model)

/-- Checks a request. Gives what the video is made from after all, and the
parameters it is made with. -/
def prepare (v : Vendor) (r : Request) : Except TaskError (Action × Params) := do
  let requested ← r.validate
  if v.supportedActions.contains requested then
    let params := v.normalize r
    let action ← params.validate
    pure (action, params)
  else .error (.unsupportedAction v.id requested.text)

def payload (v : Vendor) (p : Params) : Except TaskError Json :=
  match v with
  | .doubao => .ok (Doubao.payload p)
  | .hailuo => .ok (Hailuo.payload p)
  | .openAi =>
    match p.prompt with
    | none => .error .promptRequired
    | some prompt => .ok (OpenAi.payload p prompt)

end Vendor

end VideoGateway

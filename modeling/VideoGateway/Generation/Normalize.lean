import VideoGateway.Capability.Descriptor
import VideoGateway.Generation.Metadata
import VideoGateway.Generation.Params
import VideoGateway.Generation.Size

/-!
# Reconciling requests with capabilities

Each parameter is taken from its field, or from the metadata when the field is
not set. A value that the model does not support gives way to the model's
default or is dropped.
-/
namespace VideoGateway

namespace Effective

/-- The bounds of the guidance scale. -/
def leastCfgScale : Binary64 := .ofNat 1

def greatestCfgScale : Binary64 := .ofNat 10

/-- The bounds of the frame rate. -/
def leastFps : Nat := 1

def greatestFps : Nat := 60

/-- An integer as a natural number of 32 bits. -/
def word? (n : Int) : Option Nat :=
  if 0 ≤ n ∧ n ≤ Word.greatest32 then some n.toNat else none

def fromMetadata? (r : Request) (key : String) (read : Json → Option α) : Option α :=
  (r.metadata.get? key).bind read

/-- The requested duration, when the model supports it. -/
def duration (r : Request) (d : Descriptor) : Nat :=
  let wanted := r.duration <|> fromMetadata? r "duration" Metadata.int?
  (((wanted.bind word?).filter d.supportsDuration)).getD d.defaultDuration

/-- The text that tells the resolution: the resolution itself, the size, or the
metadata, whichever is given first. -/
def resolutionSource? (r : Request) : Option String :=
  r.resolution.bind Text.nonBlank? <|> r.size.bind Text.nonBlank? <|>
    fromMetadata? r "resolution" Metadata.text?

/-- The vendor's spelling of the requested resolution, when the model has it. -/
def resolution (r : Request) (d : Descriptor) : String :=
  (((resolutionSource? r).bind Size.resolution?).bind d.matchResolution?).getD d.defaultResolution

/-- The text that tells the aspect ratio: the ratio itself, the ratio of the size,
or the metadata, whichever is given first. -/
def ratioSource? (r : Request) : Option String :=
  r.aspectRatio.bind Text.nonBlank? <|> r.size.bind Size.ratio? <|>
    fromMetadata? r "ratio" Metadata.text? <|> fromMetadata? r "aspect_ratio" Metadata.text?

/-- The requested aspect ratio, when the model has it; none when the vendor has
no such parameter. -/
def ratio (r : Request) (d : Descriptor) : Option String :=
  d.defaultRatio.map fun default =>
    ((ratioSource? r).bind fun candidate => d.matchRatio? (Text.trim candidate)).getD default

def seed (r : Request) (d : Descriptor) : Option Int :=
  (r.seed <|> fromMetadata? r "seed" Metadata.int?).filter d.acceptsSeed

def firstFrame (r : Request) (d : Descriptor) : Option String :=
  (r.firstFrame.bind Text.nonBlank? <|> fromMetadata? r "first_frame_image" Metadata.text? <|>
    fromMetadata? r "first_frame" Metadata.text?).filter fun _ => d.firstFrame

def lastFrame (r : Request) (d : Descriptor) : Option String :=
  (r.lastFrame.bind Text.nonBlank? <|> fromMetadata? r "last_frame_image" Metadata.text? <|>
    fromMetadata? r "last_frame" Metadata.text?).filter fun _ => d.lastFrame

/-- The reference images that are not blank, as many as the model takes. -/
def references (r : Request) (d : Descriptor) : List String :=
  if d.referenceImages then (r.images.filterMap Text.nonBlank?).take d.maxReferenceImages else []

/-- The images of the video. Frames count before references. -/
def imageMode (r : Request) (d : Descriptor) : ImageMode :=
  match firstFrame r d, lastFrame r d with
  | none, none =>
    match references r d with
    | [] => .textOnly
    | image :: images => .reference (image :: images)
  | first, last => .frames first last

/-- Whether there is to be sound, when the model can make it. -/
def generateAudio (r : Request) (d : Descriptor) : Option Bool :=
  if d.audio then r.generateAudio <|> fromMetadata? r "generate_audio" Metadata.bool? else none

def cfgScale (r : Request) (d : Descriptor) : Option Binary64 :=
  if d.cfgScale then
    (r.cfgScale <|> fromMetadata? r "cfg_scale" Metadata.real?).filter fun x =>
      leastCfgScale.le x && x.le greatestCfgScale
  else none

def fps (r : Request) (d : Descriptor) : Option Nat :=
  if d.fps then
    ((r.fps <|> fromMetadata? r "fps" Metadata.int?).bind word?).filter fun n =>
      leastFps ≤ n && n ≤ greatestFps
  else none

/-- The metadata under the keys that are forwarded, unless it is null. -/
def extras (r : Request) (d : Descriptor) : Json.Members :=
  Json.Members.ofList (d.passthroughKeys.filterMap fun key =>
    match r.metadata.get? key with
    | none | some .null => none
    | some v => some (key, v))

end Effective

/-- Reconciles a request with the capabilities of its model. -/
def Request.normalize (r : Request) (d : Descriptor) : Params where
  model := r.model
  prompt := r.promptText?
  duration := d.capDuration (Effective.resolution r d) (Effective.duration r d)
  resolution := Effective.resolution r d
  ratio := Effective.ratio r d
  seed := Effective.seed r d
  imageMode := Effective.imageMode r d
  generateAudio := Effective.generateAudio r d
  cfgScale := Effective.cfgScale r d
  fps := Effective.fps r d
  extras := Effective.extras r d

end VideoGateway

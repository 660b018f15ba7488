import VideoGateway.Text.Ascii

/-!
# Model capabilities

What a vendor's model can do: the values it supports for each parameter, the
value that stands in for an unsupported one, and the kinds of input it takes.
A vendor's table has a descriptor for each known model and one for the others.
-/
namespace VideoGateway

/-- What a model makes its video from. -/
inductive ModelKind where
  | textToVideo
  | imageToVideo
  | startEndToVideo
  | subjectToVideo
deriving DecidableEq, Repr

def ModelKind.text : ModelKind → String
  | .textToVideo => "text_to_video"
  | .imageToVideo => "image_to_video"
  | .startEndToVideo => "start_end_to_video"
  | .subjectToVideo => "subject_to_video"

/-- The capabilities of a model. -/
structure Descriptor where
  name : String
  kind : ModelKind
  defaultDuration : Nat
  durations : List Nat
  defaultResolution : String
  resolutions : List String
  /-- Absent when the vendor has no aspect-ratio parameter. -/
  defaultRatio : Option String
  ratios : List String
  /-- The longest duration at a resolution. -/
  durationCaps : List (String × Nat)
  /-- Both bounds included; absent when the vendor ignores seeds. -/
  seedRange : Option (Int × Int)
  maxReferenceImages : Nat
  firstFrame : Bool
  lastFrame : Bool
  referenceImages : Bool
  audio : Bool
  cfgScale : Bool
  fps : Bool
  /-- Metadata keys that are forwarded as they are. -/
  passthroughKeys : List String
deriving DecidableEq, Repr

namespace Descriptor

def supportsDuration (d : Descriptor) (duration : Nat) : Bool :=
  d.durations.contains duration

/-- The vendor's spelling of a resolution, whatever its letter case. -/
def matchResolution? (d : Descriptor) (candidate : String) : Option String :=
  d.resolutions.find? fun supported => Text.equalFold supported candidate

/-- The ratio itself, when it is supported. -/
def matchRatio? (d : Descriptor) (candidate : String) : Option String :=
  d.ratios.find? fun supported => supported == candidate

/-- The longest duration at a resolution, whatever its letter case. -/
def durationCap? (d : Descriptor) (resolution : String) : Option Nat :=
  (d.durationCaps.find? fun (capped, _) => Text.equalFold capped resolution).map (·.2)

def acceptsSeed (d : Descriptor) (seed : Int) : Bool :=
  match d.seedRange with
  | some (least, greatest) => least ≤ seed && seed ≤ greatest
  | none => false

/-- The duration itself, or the longest supported one within the cap of the
resolution when it exceeds that cap. -/
def capDuration (d : Descriptor) (resolution : String) (duration : Nat) : Nat :=
  match d.durationCap? resolution with
  | none => duration
  | some cap =>
    if duration ≤ cap then duration
    else ((d.durations.filter (· ≤ cap)).max?).getD d.defaultDuration

end Descriptor

/-- The capabilities of a vendor's models. -/
structure CapabilityTable where
  vendor : String
  models : List Descriptor
  /-- Stands for every model that is not listed. -/
  fallback : Descriptor

namespace CapabilityTable

/-- The descriptor of a model, compared letter by letter. -/
def descriptor (t : CapabilityTable) (model : String) : Descriptor :=
  (t.models.find? (·.name == model)).getD t.fallback

def modelNames (t : CapabilityTable) : List String :=
  t.models.map (·.name)

end CapabilityTable

end VideoGateway

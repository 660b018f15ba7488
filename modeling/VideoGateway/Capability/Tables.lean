import VideoGateway.Capability.Descriptor

/-!
# The vendors' capability tables

One table per vendor, in the order in which models are listed to clients.
-/
namespace VideoGateway.CapabilityTable

namespace Doubao

def squareRatios : List String := ["16:9", "9:16", "1:1"]

def base : Descriptor where
  name := "doubao-seedance"
  kind := .textToVideo
  defaultDuration := 5
  durations := [5, 10]
  defaultResolution := "720p"
  resolutions := ["480p", "720p"]
  defaultRatio := some "16:9"
  ratios := squareRatios
  durationCaps := []
  seedRange := some (0, 2147483647)
  maxReferenceImages := 0
  firstFrame := false
  lastFrame := false
  referenceImages := false
  audio := false
  cfgScale := true
  fps := false
  passthroughKeys := ["watermark", "camera_fixed", "callback_url"]

def seedance15 : Descriptor :=
  { base with
    defaultResolution := "1080p"
    resolutions := ["480p", "720p", "1080p"]
    ratios := squareRatios ++ ["4:3", "3:4"]
    firstFrame := true
    lastFrame := true
    audio := true
    fps := true }

def models : List Descriptor :=
  [{ base with
      name := "doubao-seedance-1-0-pro-250528"
      defaultResolution := "1080p"
      resolutions := ["480p", "720p", "1080p"]
      firstFrame := true
      lastFrame := true },
    { base with name := "doubao-seedance-1-0-lite-t2v" },
    { base with
      name := "doubao-seedance-1-0-lite-i2v"
      kind := .imageToVideo
      maxReferenceImages := 4
      firstFrame := true
      lastFrame := true
      referenceImages := true },
    { seedance15 with name := "doubao-seedance-1-5-pro-251215" },
    { base with
      name := "doubao-seedance-1-0-pro-fast-251015"
      durations := [5]
      firstFrame := true
      cfgScale := false },
    { seedance15 with name := "doubao-seedance-1-5-pro-i2v", kind := .imageToVideo },
    { seedance15 with name := "doubao-seedance-1-5-pro-s2e", kind := .startEndToVideo }]

end Doubao

namespace Hailuo

def base : Descriptor where
  name := "hailuo"
  kind := .textToVideo
  defaultDuration := 6
  durations := [6]
  defaultResolution := "720P"
  resolutions := ["720P"]
  defaultRatio := none
  ratios := []
  durationCaps := []
  seedRange := none
  maxReferenceImages := 0
  firstFrame := false
  lastFrame := false
  referenceImages := false
  audio := false
  cfgScale := false
  fps := false
  passthroughKeys := ["prompt_optimizer", "fast_pretreatment", "callback_url", "aigc_watermark"]

def hailuo2 : Descriptor :=
  { base with
    defaultResolution := "768P"
    resolutions := ["768P", "1080P"]
    durations := [6, 10]
    durationCaps := [("1080P", 6)]
    firstFrame := true }

def i2v01 : Descriptor :=
  { base with
    kind := .imageToVideo
    resolutions := ["720P", "1080P"]
    firstFrame := true }

def models : List Descriptor :=
  [{ hailuo2 with name := "MiniMax-Hailuo-2.3" },
    { hailuo2 with name := "MiniMax-Hailuo-2.3-Fast", kind := .imageToVideo },
    { hailuo2 with name := "MiniMax-Hailuo-02", kind := .startEndToVideo, lastFrame := true },
    { base with name := "T2V-01-Director", resolutions := ["720P", "1080P"] },
    { base with name := "T2V-01" },
    { i2v01 with name := "I2V-01-Director" },
    { i2v01 with name := "I2V-01-live" },
    { i2v01 with name := "I2V-01" },
    { base with
      name := "S2V-01"
      kind := .subjectToVideo
      referenceImages := true
      maxReferenceImages := 1 }]

end Hailuo

namespace OpenAi

def sora2 : Descriptor where
  name := "sora-2"
  kind := .textToVideo
  defaultDuration := 4
  durations := [4, 8, 12]
  defaultResolution := "720p"
  resolutions := ["720p"]
  defaultRatio := some "16:9"
  ratios := ["16:9", "9:16"]
  durationCaps := []
  seedRange := none
  maxReferenceImages := 0
  firstFrame := false
  lastFrame := false
  referenceImages := false
  audio := false
  cfgScale := false
  fps := false
  passthroughKeys := []

def models : List Descriptor :=
  [sora2, { sora2 with name := "sora-2-pro", resolutions := ["720p", "1024p"] }]

end OpenAi

/-- The models of the Seedance family. -/
def doubao : CapabilityTable := ⟨"doubao", Doubao.models, Doubao.base⟩

/-- The models of the Hailuo family. -/
def hailuo : CapabilityTable := ⟨"hailuo", Hailuo.models, Hailuo.base⟩

/-- The models of the Sora family. -/
def openAi : CapabilityTable := ⟨"openai", OpenAi.models, OpenAi.sora2⟩

end VideoGateway.CapabilityTable

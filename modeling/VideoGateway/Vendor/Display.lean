import VideoGateway.Channel.Registry
import VideoGateway.Task.VideoDocument
import VideoGateway.Vendor.Answer

/-!
# Video documents with what the vendor tells

The vendor's last answer, which the task keeps, adds metadata to the document of
the task, and an error that it reports is shown in the vendor's words. An answer
that cannot be read adds nothing.
-/
namespace VideoGateway

namespace VideoError

/-- An error in a vendor's words, with its code if there is one. -/
def ofWords (code message : String) : VideoError :=
  ⟨message, if code.isEmpty then none else some code⟩

end VideoError

namespace VendorError

def display (e : VendorError) : VideoError :=
  .ofWords e.code e.message

end VendorError

namespace Doubao

/-- A text that is not empty. -/
def told (s : Option String) : Option String :=
  s.filter (!·.isEmpty)

def Report.metadata (r : Report) : List (String × Json) :=
  Params.entry "resolution" .str (told r.resolution) ++
    Params.entry "duration" .nat (r.duration.filter (0 < ·)) ++
    Params.entry "ratio" .str (told r.ratio) ++
    Params.entry "fps" .nat (r.fps.filter (0 < ·)) ++
    Params.entry "seed" .int (r.seed.filter (0 < ·)) ++
    Params.entry "audio_url" .str (told r.content.audioUrl)

end Doubao

namespace Hailuo

def Report.metadata (r : Report) : List (String × Json) :=
  (if 0 < r.videoWidth ∧ 0 < r.videoHeight then
    [("video_width", .nat r.videoWidth), ("video_height", .nat r.videoHeight)] else []) ++
    if r.fileId.isEmpty then [] else [("file_id", .str r.fileId)]

end Hailuo

namespace OpenAi

/-- The path of a video's octets, at the vendor and at the gateway. -/
def contentPath (id : String) : String :=
  "/v1/videos/" ++ id ++ "/content"

def Video.metadata (v : Video) : List (String × Json) :=
  Params.entry "size" .str v.size ++ Params.entry "seconds" .str v.seconds

/-- The error of a video, shown unless its message is empty. -/
def Video.shownError? (v : Video) : Option VideoError :=
  (v.error.filter fun e => !e.message.isEmpty).map fun e => .ofWords e.code e.message

end OpenAi

namespace VideoDocument

/-- The document with another error, if there is one. -/
def withError (d : VideoDocument) (e : Option VideoError) : VideoDocument :=
  { d with error := e <|> d.error }

end VideoDocument

namespace Channel

/-- The document of a task of this channel. Videos whose address needs the
channel key are shown under the gateway's own path. -/
def document (c : Channel) (t : Task) : VideoDocument :=
  let d := VideoDocument.ofTask t
  match c.vendor with
  | .doubao =>
    let report := (Document.readJson Doubao.Report.read t.data).toOption.getD .empty
    (d.withError (report.vendorError?.map VendorError.display)).withMetadata report.metadata
  | .hailuo =>
    let report := (Document.readJson Hailuo.Report.read t.data).toOption.getD .empty
    d.withMetadata report.metadata
  | .openAi =>
    let video := (Document.readJson OpenAi.Video.read t.data).toOption.getD .empty
    let d := if d.url.isSome && t.storageUrl.isNone then
      { d with url := some (OpenAi.contentPath t.id) } else d
    (d.withError video.shownError?).withMetadata video.metadata

end Channel

end VideoGateway

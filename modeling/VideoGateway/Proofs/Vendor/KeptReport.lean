import VideoGateway.Proofs.Generation.Normalize
import VideoGateway.Proofs.Task.Lifecycle
import VideoGateway.Proofs.Vendor.KeptAnswer
import VideoGateway.Proofs.Vendor.VideoAddress

/-!
# Reports that are kept

A poll reads the body of an answer as a report of the vendor, and the task keeps the body
as a value. What is shown of the task is read from that value: the whole report, where
the body is a value as a whole, and nothing of it where the body is kept as a text.
-/
namespace VideoGateway

open Document (Reading rereads_faithful)

/-- What a vendor tells about a task. -/
inductive VendorReport where
  | doubao (report : Doubao.Report)
  | hailuo (report : Hailuo.Report)
  | openAi (video : OpenAi.Video)
deriving DecidableEq, Repr

namespace VendorReport

def read : Vendor → Reading VendorReport
  | .doubao => fun d => (Doubao.Report.read d).map .doubao
  | .hailuo => fun d => (Hailuo.Report.read d).map .hailuo
  | .openAi => fun d => (OpenAi.Video.read d).map .openAi

def silent : Vendor → VendorReport
  | .doubao => .doubao .empty
  | .hailuo => .hailuo .empty
  | .openAi => .openAi .empty

def poll (c : Channel) : VendorReport → Poll
  | .doubao report => report.poll
  | .hailuo report => report.poll
  | .openAi video => video.poll c.contentUrl

def metadata : VendorReport → List (String × Json)
  | .doubao report => report.metadata
  | .hailuo report => report.metadata
  | .openAi video => video.metadata

/-- The error that is shown, as far as the vendor has such errors. -/
def shownError? : VendorReport → Option VideoError
  | .doubao report => report.vendorError?.map VendorError.display
  | .hailuo _ => none
  | .openAi video => video.shownError?

theorem stable_map {α β : Type} {read : Reading α} (h : read.Stable) (f : α → β) :
    Reading.Stable fun d => (read d).map f := by
  intro d e b hrereads hb
  obtain ⟨a, ha, rfl⟩ := map_eq_ok_iff.mp hb
  exact map_eq_ok_iff.mpr ⟨a, h hrereads ha, rfl⟩

theorem read_stable (v : Vendor) : (read v).Stable := by
  cases v with
  | doubao => exact stable_map (Doubao.Report.read_respects rereads_faithful) _
  | hailuo => exact stable_map (Hailuo.Report.read_respects rereads_faithful) _
  | openAi => exact stable_map (OpenAi.Video.read_respects rereads_faithful) _

theorem readJson_str (v : Vendor) (s : String) (report : VendorReport) :
    Document.readJson (read v) (.str s) ≠ .ok report := by
  cases v <;> nofun

end VendorReport

namespace Channel

/-- The document of a task in which a report of the vendor is shown. -/
def documentWith (c : Channel) (t : Task) (report : VendorReport) : VideoDocument :=
  let d := VideoDocument.ofTask t
  let d := match c.vendor with
    | .doubao | .hailuo => d
    | .openAi =>
      if d.url.isSome && t.storageUrl.isNone then
        { d with url := some (OpenAi.contentPath t.id) } else d
  (d.withError report.shownError?).withMetadata report.metadata

variable {c : Channel} {body : Bytes}

theorem readPoll_eq_ok_iff {p : Poll} :
    c.readPoll body = .ok p ↔ ∃ report,
      Document.readText (VendorReport.read c.vendor) body = .ok report ∧ report.poll c = p := by
  unfold readPoll VendorReport.read
  cases c.vendor <;>
    simp only [map_eq_ok_iff, readBody_eq_ok_iff, Document.readText_map] <;>
    grind [VendorReport.poll]

theorem outcome_of_readText {report : VendorReport}
    (h : Document.readText (VendorReport.read c.vendor) body = .ok report) :
    c.outcome body = c.vendor.statuses.interpret (report.poll c) := by
  rw [outcome, readPoll_eq_ok_iff.mpr ⟨report, h, rfl⟩]
  rfl

theorem document_eq (c : Channel) (t : Task) :
    c.document t = c.documentWith t
      ((Document.readJson (VendorReport.read c.vendor) t.data).toOption.getD
        (.silent c.vendor)) := by
  unfold document documentWith VendorReport.read Document.readJson
  cases c.vendor with
  | doubao =>
    dsimp only
    cases Doubao.Report.read (Document.ofJson t.data) <;> rfl
  | hailuo =>
    dsimp only
    cases Hailuo.Report.read (Document.ofJson t.data) <;> rfl
  | openAi =>
    dsimp only
    cases OpenAi.Video.read (Document.ofJson t.data) <;> rfl

theorem document_of_readJson {t : Task} {report : VendorReport}
    (h : Document.readJson (VendorReport.read c.vendor) t.data = .ok report) :
    c.document t = c.documentWith t report := by
  rw [document_eq, h]
  rfl

theorem document_of_str {t : Task} {s : String} (h : t.data = .str s) :
    c.document t = c.documentWith t (.silent c.vendor) := by
  rw [document_eq, h]
  cases hread : Document.readJson (VendorReport.read c.vendor) (.str s) with
  | error fault => rfl
  | ok report => exact absurd hread (VendorReport.readJson_str c.vendor s report)

/-- A poll reads a report, and the record that it moves on keeps the body. Where the body
is a value as a whole, the record keeps this value: it is read as the same report, which
is shown of the task whatever else becomes of the record. Where it is none, because of a
part that the report does not tell, the record keeps a text that cannot be read as a
report, and nothing of the report is shown. -/
theorem report_kept {o : Outcome} {t t' : Task} {now : Instant} (houtcome : c.outcome body = .ok o)
    (hadvance : t.advance? o (rawValue body) now = some t') :
    ∃ report, Document.readText (VendorReport.read c.vendor) body = .ok report ∧
      c.vendor.statuses.interpret (report.poll c) = .ok o ∧
      (∀ v, Json.parse? body = some v → t'.data = v ∧
        Document.readJson (VendorReport.read c.vendor) t'.data = .ok report ∧
        ∀ u : Task, u.data = t'.data → c.document u = c.documentWith u report) ∧
      (Json.parse? body = none → t'.data = .str (Text.Utf8.decodeLossy body) ∧
        (∀ r, Document.readJson (VendorReport.read c.vendor) t'.data ≠ .ok r) ∧
        ∀ u : Task, u.data = t'.data → c.document u = c.documentWith u (.silent c.vendor)) := by
  obtain ⟨p, hpoll, hinterpret⟩ := bind_eq_ok_iff.mp houtcome
  obtain ⟨report, hread, rfl⟩ := readPoll_eq_ok_iff.mp hpoll
  obtain ⟨-, -, rfl⟩ := Task.advance?_eq_some_iff.mp hadvance
  have hdata : (t.advanced o (rawValue body) now).data = rawValue body := rfl
  refine ⟨report, hread, hinterpret, fun v hv => ?_, fun hnone => ?_⟩
  · have hkept : rawValue body = v := by rw [rawValue, hv, Option.getD_some]
    have hsame : Document.readJson (VendorReport.read c.vendor) v = .ok report :=
      Document.readJson_of_parse? (VendorReport.read_stable c.vendor) hread hv
    rw [hdata, hkept]
    exact ⟨rfl, hsame, fun u hu => document_of_readJson (hu ▸ hsame)⟩
  · have hkept : rawValue body = .str (Text.Utf8.decodeLossy body) := by
      rw [rawValue, hnone, Option.getD_none]
    rw [hdata, hkept]
    exact ⟨rfl, VendorReport.readJson_str c.vendor _, fun u hu => document_of_str hu⟩

end Channel

namespace Doubao

def sampleChannel : Channel :=
  .new 1 .doubao "http://doubao.test" "key"

def askedTask : Task :=
  .submitted "t1" 1 .textToVideo (Vendor.doubao.normalize Request.sample) .one .null ⟨0⟩

/-- A report of a finished video of ten seconds, with other members behind it. -/
def finishedBody (others : String) : Bytes :=
  Text.Utf8.encode ("\x7b\"status\":\"succeeded\"," ++
    "\"content\":\x7b\"video_url\":\"http://c/v\"\x7d,\"duration\":10" ++
    others ++ "\x7d")

def finishedReport : Report :=
  { Report.empty with
    status := "succeeded"
    content := ⟨some "http://c/v", none⟩
    duration := some 10 }

def finishedOutcome : Outcome :=
  ⟨.success, 100, some "http://c/v", none, none, none⟩

def keepingTask (others : String) : Task :=
  askedTask.advanced finishedOutcome (rawValue (finishedBody others)) ⟨1⟩

theorem report_kept_finished :
    sampleChannel.document (keepingTask "") =
      sampleChannel.documentWith (keepingTask "") (.doubao finishedReport) := by
  have hread : Document.readText (VendorReport.read sampleChannel.vendor) (finishedBody "") =
      .ok (.doubao finishedReport) := by
    decide +kernel
  have houtcome : sampleChannel.outcome (finishedBody "") = .ok finishedOutcome := by
    rw [Channel.outcome_of_readText hread]
    decide +kernel
  have hadvance : askedTask.advance? finishedOutcome (rawValue (finishedBody "")) ⟨1⟩ =
      some (keepingTask "") := rfl
  have hvalue : (Json.parse? (finishedBody "")).isSome = true := by decide +kernel
  obtain ⟨report, hreport, -, hwhole, -⟩ := Channel.report_kept houtcome hadvance
  obtain rfl : report = .doubao finishedReport := Except.ok.inj (hreport.symm.trans hread)
  obtain ⟨v, hv⟩ := Option.isSome_iff_exists.mp hvalue
  obtain ⟨-, -, hshown⟩ := hwhole v hv
  exact hshown _ rfl

/-- A member that is no part of a report, with a number that is too large. -/
def largeMember : String := ",\"x\":1e400"

/-- With such a member the kept answer is no report any more, and the duration that was
asked for is shown, not that of the report. -/
theorem report_lost :
    sampleChannel.outcome (finishedBody largeMember) = .ok finishedOutcome ∧
      askedTask.advance? finishedOutcome (rawValue (finishedBody largeMember)) ⟨1⟩ =
        some (keepingTask largeMember) ∧
      Document.readText (VendorReport.read .doubao) (finishedBody largeMember) =
        .ok (.doubao finishedReport) ∧
      (∀ report, Document.readJson (VendorReport.read .doubao) (keepingTask largeMember).data ≠
        .ok report) ∧
      ((sampleChannel.document (keepingTask largeMember)).metadata.get? "duration").bind
        Json.number? = some (.int 5) := by
  have hread : Document.readText (VendorReport.read .doubao) (finishedBody largeMember) =
      .ok (.doubao finishedReport) := by
    decide +kernel
  have hnone : (Json.parse? (finishedBody largeMember)).isNone = true := by decide +kernel
  have hdata : (keepingTask largeMember).data =
      .str (Text.Utf8.decodeLossy (finishedBody largeMember)) := by
    show rawValue _ = _
    rw [rawValue, Option.isNone_iff_eq_none.mp hnone, Option.getD_none]
  refine ⟨?_, rfl, hread, ?_, ?_⟩
  · rw [Channel.outcome_of_readText (c := sampleChannel) hread]
    decide +kernel
  · rw [hdata]
    exact VendorReport.readJson_str .doubao _
  · rw [Channel.document_of_str hdata]
    decide +kernel

end Doubao

end VideoGateway

import VideoGateway.Proofs.Json.Outline
import VideoGateway.Proofs.Vendor.Refusal

/-!
# The address of a video that is found later

One vendor tells the file of a finished video, and where the file is only when
it is asked again. The address is put into its first answer, which is written anew
and read once more.
-/
namespace VideoGateway.Hailuo

open Document (outlines_faithful rereads_faithful)

namespace Report

variable {report : Report} {members : Json.Members}

theorem read_insert (hsorted : members.Sorted)
    (h : Document.readJson Report.read (.obj members) = .ok report) (url : String) :
    Document.readJson Report.read (.obj (Json.Members.insert "video_url" (.str url) members)) =
      .ok { report with videoUrl := some url } := by
  have hurl : videoUrlSlot.read (Document.ofJson (.str url)) = .ok (some url) := rfl
  have hmem : ⟨videoUrlSlot, Report.videoUrl⟩ ∈ columns := by simp [columns]
  refine read_gathers.readJson_insert fields_plain hmem hsorted hurl ?_ h
  simp [columns, Document.Column.field]

end Report

variable {σ : Type} {env : Surroundings σ} {w w₁ w₂ : World σ} {c : Channel}
  {taskId fileId url : String} {cancelled : Bool} {body answer : Bytes} {report : Report}

theorem fileToFind?_eq_some_iff :
    fileToFind? body = some fileId ↔ ∃ report, Document.readText Report.read body = .ok report ∧
      statuses.lookup? report.status = some .succeeded ∧ report.fileId ≠ "" ∧
      report.verdict.vendorError? = none ∧ report.fileId = fileId := by
  unfold fileToFind?
  cases hread : Document.readText Report.read body with
  | error fault => simp
  | ok report => simp [and_assoc]

/-- An answer that is an object is written anew with the address in it. -/
theorem readText_withVideoUrl {members : Json.Members}
    (hread : Document.readText Report.read body = .ok report)
    (hparse : Json.parse? body = some (.obj members)) (url : String) :
    Document.readText Report.read (withVideoUrl body url) =
      .ok { report with videoUrl := some url } := by
  have hstable : Report.read.Stable := Report.read_respects rereads_faithful
  have hvalue := Document.readJson_of_parse? hstable hread hparse
  have hinserted := Report.read_insert (Document.sorted_of_parse? hparse) hvalue url
  rw [withVideoUrl, hparse]
  exact Document.readText_bytes (Report.read_respects outlines_faithful) hinserted

theorem readText_withVideoUrl_of_list {items : List Json}
    (hread : Document.readText Report.read body = .ok report)
    (hparse : Json.parse? body = some (.arr items)) (url : String) :
    Document.readText Report.read (withVideoUrl body url) = .ok report := by
  have hstable : Report.read.Stable := Report.read_respects rereads_faithful
  have hvalue := Document.readJson_of_parse? hstable hread hparse
  rw [withVideoUrl, hparse]
  exact Document.readText_bytes (Report.read_respects outlines_faithful) hvalue

/-- Of an answer that holds something else than a value, the address alone is
written. -/
theorem readText_withVideoUrl_of_none (hparse : Json.parse? body = none) (url : String) :
    Document.readText Report.read (withVideoUrl body url) =
      .ok { Report.empty with videoUrl := some url } := by
  have hempty : Document.readJson Report.read (.obj []) = .ok Report.empty := rfl
  have hinserted := Report.read_insert .nil hempty url
  rw [withVideoUrl, hparse]
  exact Document.readText_bytes (Report.read_respects outlines_faithful) hinserted

theorem fetchStatus_of_file (hc : c.vendor = .hailuo)
    (hbody : (Gateway.ask cancelled (c.statusCall taskId)).run.run env w = (.ok body, w₁))
    (hfile : fileToFind? body = some fileId)
    (hanswer : (Gateway.ask cancelled (c.fileCall fileId)).run.run env w₁ = (.ok answer, w₂))
    (hurl : downloadUrl fileId answer = .ok url) :
    (Gateway.fetchStatus c taskId cancelled).run.run env w =
      (.ok (withVideoUrl body url), w₂) := by
  unfold Gateway.fetchStatus
  rw [Attempt.run_bind_of_ok hbody]
  simp only [hc, hfile]
  rw [Attempt.run_bind_of_ok hanswer, Attempt.run_ofExcept_bind, hurl]
  rfl

theorem outcome_of_read (hc : c.vendor = .hailuo)
    (hread : Document.readText Report.read body = .ok report) :
    c.outcome body = statuses.interpret report.poll := by
  rw [Channel.outcome, readPoll_eq_ok hc hread, ok_bind, hc]
  rfl

theorem interpret_of_resolved (hstatus : statuses.lookup? report.status = some .succeeded)
    (herror : report.verdict.vendorError? = none) (hblank : Text.isBlankText url = false) :
    statuses.interpret { report with videoUrl := some url }.poll =
      .ok ⟨.success, Outcome.finalProgress, some url, none, none, none⟩ := by
  have haddress : StatusTable.address? (some url) = some url := by
    simp [StatusTable.address?, hblank]
  simp only [StatusTable.interpret, Report.poll, herror, hstatus, haddress]
  rfl

/-- A success whose file has been found stays a success with the address, if the
answer is an object and holds nothing that no value has. Otherwise the address is
lost, or all but the address. -/
theorem resolved_success_kept (hc : c.vendor = .hailuo)
    (hbody : (Gateway.ask cancelled (c.statusCall taskId)).run.run env w = (.ok body, w₁))
    (hread : Document.readText Report.read body = .ok report)
    (hstatus : statuses.lookup? report.status = some .succeeded)
    (herror : report.verdict.vendorError? = none) (hfile : report.fileId ≠ "")
    (hanswer : (Gateway.ask cancelled (c.fileCall report.fileId)).run.run env w₁ = (.ok answer, w₂))
    (hurl : downloadUrl report.fileId answer = .ok url) (hblank : Text.isBlankText url = false) :
    ∃ kept, (Gateway.fetchStatus c taskId cancelled).run.run env w = (.ok kept, w₂) ∧
      (∀ members, Json.parse? body = some (.obj members) →
        Document.readText Report.read kept = .ok { report with videoUrl := some url } ∧
        c.outcome kept = .ok ⟨.success, Outcome.finalProgress, some url, none, none, none⟩) ∧
      (∀ items, Json.parse? body = some (.arr items) →
        Document.readText Report.read kept = .ok report ∧ c.outcome kept = c.outcome body) ∧
      (Json.parse? body = none →
        Document.readText Report.read kept = .ok { Report.empty with videoUrl := some url } ∧
        c.outcome kept = .ok (.pending .inProgress Outcome.unknownProgress)) := by
  have hfind : fileToFind? body = some report.fileId :=
    fileToFind?_eq_some_iff.mpr ⟨report, hread, hstatus, hfile, herror, rfl⟩
  refine ⟨withVideoUrl body url, fetchStatus_of_file hc hbody hfind hanswer hurl, ?_, ?_, ?_⟩
  · intro members hparse
    have hkept := readText_withVideoUrl hread hparse url
    refine ⟨hkept, ?_⟩
    rw [outcome_of_read hc hkept]
    exact interpret_of_resolved hstatus herror hblank
  · intro items hparse
    have hkept := readText_withVideoUrl_of_list hread hparse url
    refine ⟨hkept, ?_⟩
    rw [outcome_of_read hc hkept, outcome_of_read hc hread]
  · intro hparse
    have hkept := readText_withVideoUrl_of_none hparse url
    have hunknown : statuses.lookup? Report.empty.status = none := by decide +kernel
    have hfine : Report.empty.verdict.vendorError? = none := rfl
    refine ⟨hkept, ?_⟩
    rw [outcome_of_read hc hkept]
    simp only [StatusTable.interpret, Report.poll, hfine, hunknown]

/-- Surroundings in which the vendor gives an answer to the first question and tells
the address of a file from then on. -/
def resolvingSurroundings (body : String) : Surroundings Nat where
  reply _ calls :=
    (.ok ⟨.ok, [], Text.Utf8.encode (if calls = 0 then body else fileBody), true⟩, calls + 1)
  refuses _ calls := (false, calls)
where
  fileBody := "\x7b\"file\":\x7b\"download_url\":\"http://hailuo.test/koi.mp4\"\x7d\x7d"

def askedFirst (body : String) : Except TaskError Bytes × World Nat :=
  (Gateway.ask false (sampleChannel.statusCall "t1")).run.run (resolvingSurroundings body)
    (.fresh .starter 0)

def askedAgain (body : String) : Except TaskError Bytes × World Nat :=
  (Gateway.ask false (sampleChannel.fileCall "f1")).run.run (resolvingSurroundings body)
    (askedFirst body).2

/-- A success with a member that no reading looks at. -/
def finishedBody : String :=
  "\x7b\"status\":\"Success\",\"file_id\":\"f1\",\"video_width\":1366,\"cost\":1.5\x7d"

theorem resolved_success_kept_finished : ∃ kept,
    ((Gateway.fetchStatus sampleChannel "t1" false).run.run (resolvingSurroundings finishedBody)
      (.fresh .starter 0)).1 = .ok kept ∧
    sampleChannel.outcome kept =
      .ok ⟨.success, 100, some "http://hailuo.test/koi.mp4", none, none, none⟩ := by
  have hread : Document.readText Report.read (Text.Utf8.encode finishedBody) =
      .ok ⟨"Success", "f1", 1366, 0, none, .fine⟩ := by
    decide +kernel
  have hfirst : (askedFirst finishedBody).1 = .ok (Text.Utf8.encode finishedBody) := by
    decide +kernel
  have hagain : (askedAgain finishedBody).1 =
      .ok (Text.Utf8.encode resolvingSurroundings.fileBody) := by
    decide +kernel
  have hurl : downloadUrl "f1" (Text.Utf8.encode resolvingSurroundings.fileBody) =
      .ok "http://hailuo.test/koi.mp4" := by
    decide +kernel
  have hobject : ((Json.parse? (Text.Utf8.encode finishedBody)).bind
      fun v => v.member? "status").isSome = true := by
    decide +kernel
  obtain ⟨members, hparse⟩ : ∃ members,
      Json.parse? (Text.Utf8.encode finishedBody) = some (.obj members) := by
    cases hparse : Json.parse? (Text.Utf8.encode finishedBody) with
    | none =>
      rw [hparse] at hobject
      cases hobject
    | some v =>
      rw [hparse] at hobject
      cases v with
      | obj members => exact ⟨members, rfl⟩
      | _ => cases hobject
  obtain ⟨kept, hrun, hkept, -⟩ := resolved_success_kept (c := sampleChannel) rfl
    (Prod.ext hfirst rfl) hread (by decide +kernel) (by decide +kernel) (by decide)
    (Prod.ext hagain rfl) hurl (by decide +kernel)
  exact ⟨kept, congrArg Prod.fst hrun, (hkept members hparse).2⟩

def listedBody : String := "[\"Success\",\"f1\"]"

theorem listed_success_lost :
    fileToFind? (Text.Utf8.encode listedBody) = some "f1" ∧
    downloadUrl "f1" (Text.Utf8.encode resolvingSurroundings.fileBody) =
      .ok "http://hailuo.test/koi.mp4" ∧
    ((Gateway.fetchStatus sampleChannel "t1" false).run.run (resolvingSurroundings listedBody)
      (.fresh .starter 0)).1 = .ok (Text.Utf8.encode listedBody) ∧
    sampleChannel.outcome (Text.Utf8.encode listedBody) =
      .error (.missingResultUrl "Success") := by
  decide +kernel

end VideoGateway.Hailuo

import VideoGateway.Proofs.Json.Respect
import VideoGateway.Vendor.Exchange

/-!
# Records of answers

The answers of the vendors are records of fields of one name each, and each field
is read as one part of the answer. So a reading of an answer respects what the
readings of its fields do, and where an answer is read, its error is what the
error member is read as.
-/
namespace VideoGateway

open Document (Column Faithful Field Reading Record)

variable {R : Document → Document → Prop}

section Bodies

variable {α : Type} {read : Reading α} {body : Bytes} {d : Document} {a : α}

theorem readBody_eq_ok_iff : readBody read body = .ok a ↔ Document.readText read body = .ok a := by
  unfold readBody
  cases Document.readText read body <;> simp

/-- A body that cannot be read is the vendor's fault. -/
theorem readBody_eq_error (h : ∀ a, Document.readText read body ≠ .ok a) :
    ∃ fault, readBody read body = .error (.unreadableBody fault (Text.Utf8.decodeLossy body)) := by
  unfold readBody
  cases hread : Document.readText read body with
  | error fault => exact ⟨fault, rfl⟩
  | ok a => exact absurd hread (h a)

end Bodies

namespace ErrorObject

variable {d : Document} {e : ErrorObject} {es : List (Option String × Document)} {message : String}

def fields : List Field := [codeSlot.field, messageSlot.field]

def columns : List (Column ErrorObject) :=
  [⟨codeSlot, ErrorObject.code⟩, ⟨messageSlot, ErrorObject.message⟩]

theorem fields_plain : Field.Plain fields := by decide

theorem read_gathers : read.Gathers columns := by
  refine ⟨_, fun _ => rfl, ?_⟩
  refine .get fun code => .get fun message => .done fun e => ?_
  cases e
  simp

theorem read_respects (hR : Faithful R) : read.Respects R := by
  apply read_gathers.respects fields_plain hR
  simp only [columns, List.forall_mem_cons]
  exact ⟨hR.string, hR.string, nofun⟩

theorem takes_code : read.Takes fields codeSlot ErrorObject.code :=
  read_gathers.takes fields_plain (by simp [columns])

theorem takes_message : read.Takes fields messageSlot ErrorObject.message :=
  read_gathers.takes fields_plain (by simp [columns])

/-- An object with a text for a message, and a text for a code if there is one, is
read. -/
theorem read_object (hes : Record.FitsApart fields "code" es)
    (hmessage : (some "message", .string (some message)) ∈ es)
    (hcode : ∀ d, (some "code", d) ∈ es → ∃ code, d = .string (some code)) :
    ∃ code, read (.object es true) = .ok ⟨code, message⟩ := by
  have hfits : Record.Fits fields es := by
    refine Record.FitsApart.fits fields_plain (f := codeSlot.field) hes (by simp [fields]) ?_
    intro d hd
    obtain ⟨code, rfl⟩ := hcode d hd
    rfl
  obtain ⟨e, he⟩ := takes_message.read_of_fits hfits
  have hread := takes_message.read_member he hmessage
  cases hread
  exact ⟨e.code, he⟩

/-- The code of an object that is read is a text. -/
theorem code_eq_of_read {closed : Bool} (h : read (.object es closed) = .ok e)
    (hmem : (some "code", d) ∈ es) : d = .string (some e.code) := by
  have hread := takes_code.read_member h hmem
  cases d with
  | string s =>
    cases s with
    | none => cases hread
    | some code => cases hread; rfl
  | number n => cases n <;> cases hread
  | _ => cases hread

end ErrorObject

namespace Usage

def columns : List (Column Usage) :=
  [⟨completionTokensSlot, completionTokens⟩, ⟨totalTokensSlot, totalTokens⟩]

theorem read_gathers : read.Gathers columns := by
  refine ⟨_, fun _ => rfl, ?_⟩
  refine .get fun completion => .get fun total => .done fun usage => ?_
  cases usage
  simp

theorem read_respects (hR : Faithful R) : read.Respects R := by
  apply read_gathers.respects (by decide) hR
  simp only [columns, List.forall_mem_cons]
  exact ⟨hR.natural (Nat.le_refl _), hR.natural (Nat.le_refl _), nofun⟩

end Usage

namespace Doubao

namespace Submission

def fields : List Field := [idSlot.field, ErrorObject.slot.field]

def columns : List (Column Submission) :=
  [⟨idSlot, Submission.id⟩, ⟨ErrorObject.slot, Submission.error⟩]

theorem fields_plain : Field.Plain fields := by decide

theorem read_gathers : read.Gathers columns := by
  refine ⟨_, fun _ => rfl, ?_⟩
  refine .get fun id => .get fun error => .done fun s => ?_
  cases s
  simp

theorem read_respects (hR : Faithful R) : read.Respects R := by
  apply read_gathers.respects fields_plain hR
  simp only [columns, List.forall_mem_cons]
  exact ⟨hR.string, hR.option nofun (ErrorObject.read_respects hR), nofun⟩

theorem takes_error : read.Takes fields ErrorObject.slot Submission.error :=
  read_gathers.takes fields_plain (by simp [columns])

end Submission

namespace Content

def columns : List (Column Content) :=
  [⟨videoUrlSlot, Content.videoUrl⟩, ⟨audioUrlSlot, Content.audioUrl⟩]

theorem read_gathers : read.Gathers columns := by
  refine ⟨_, fun _ => rfl, ?_⟩
  refine .get fun video => .get fun audio => .done fun content => ?_
  cases content
  simp

theorem read_respects (hR : Faithful R) : read.Respects R := by
  apply read_gathers.respects (by decide) hR
  simp only [columns, List.forall_mem_cons]
  exact ⟨hR.option nofun hR.string, hR.option nofun hR.string, nofun⟩

end Content

namespace Report

def columns : List (Column Report) :=
  [⟨statusSlot, Report.status⟩, ⟨contentSlot, Report.content⟩, ⟨ErrorObject.slot, Report.error⟩,
    ⟨seedSlot, Report.seed⟩, ⟨resolutionSlot, Report.resolution⟩, ⟨durationSlot, Report.duration⟩,
    ⟨ratioSlot, Report.ratio⟩, ⟨fpsSlot, Report.fps⟩, ⟨usageSlot, Report.usage⟩]

theorem fields_plain : Field.Plain fields := by decide

theorem read_gathers : read.Gathers columns := by
  refine ⟨_, fun _ => rfl, ?_⟩
  refine .get fun status => .get fun content => .get fun error => .get fun seed =>
    .get fun resolution => .get fun duration => .get fun ratio => .get fun fps =>
    .get fun usage => .done fun report => ?_
  cases report
  simp [and_assoc]

theorem read_respects (hR : Faithful R) : read.Respects R := by
  have htext : (Reading.option .string).Respects R := hR.option nofun hR.string
  have hword : (Reading.option .word32).Respects R := hR.option nofun (hR.natural (by decide))
  apply read_gathers.respects fields_plain hR
  simp only [columns, List.forall_mem_cons]
  exact ⟨hR.string, Content.read_respects hR, hR.option nofun (ErrorObject.read_respects hR),
    hR.option nofun hR.signed64, htext, hword, htext, hword,
    hR.option nofun (Usage.read_respects hR), nofun⟩

theorem takes_error : read.Takes fields ErrorObject.slot Report.error :=
  read_gathers.takes fields_plain (by simp [columns])

end Report

end Doubao

namespace Hailuo

namespace Verdict

def columns : List (Column Verdict) := [⟨codeSlot, Verdict.code⟩, ⟨messageSlot, Verdict.message⟩]

theorem read_gathers : read.Gathers columns := by
  refine ⟨_, fun _ => rfl, ?_⟩
  refine .get fun code => .get fun message => .done fun verdict => ?_
  cases verdict
  simp

theorem read_respects (hR : Faithful R) : read.Respects R := by
  apply read_gathers.respects (by decide) hR
  simp only [columns, List.forall_mem_cons]
  exact ⟨hR.signed64, hR.string, nofun⟩

end Verdict

namespace Report

def columns : List (Column Report) :=
  [⟨statusSlot, Report.status⟩, ⟨fileIdSlot, Report.fileId⟩, ⟨videoWidthSlot, Report.videoWidth⟩,
    ⟨videoHeightSlot, Report.videoHeight⟩, ⟨videoUrlSlot, Report.videoUrl⟩,
    ⟨Verdict.slot, Report.verdict⟩]

theorem fields_plain : Field.Plain fields := by decide

theorem read_gathers : read.Gathers columns := by
  refine ⟨_, fun _ => rfl, ?_⟩
  refine .get fun status => .get fun fileId => .get fun width => .get fun height =>
    .get fun url => .get fun verdict => .done fun report => ?_
  cases report
  simp [and_assoc]

theorem read_respects (hR : Faithful R) : read.Respects R := by
  have hword : Reading.word32.Respects R := hR.natural (by decide)
  apply read_gathers.respects fields_plain hR
  simp only [columns, List.forall_mem_cons]
  exact ⟨hR.string, hR.string, hword, hword, hR.option nofun hR.string, Verdict.read_respects hR,
    nofun⟩

end Report

end Hailuo

namespace OpenAi.Video

def columns : List (Column Video) :=
  [⟨idSlot, Video.id⟩, ⟨statusSlot, Video.status⟩, ⟨progressSlot, Video.progress⟩,
    ⟨sizeSlot, Video.size⟩, ⟨secondsSlot, Video.seconds⟩, ⟨ErrorObject.slot, Video.error⟩]

theorem fields_plain : Field.Plain fields := by decide

theorem read_gathers : read.Gathers columns := by
  refine ⟨_, fun _ => rfl, ?_⟩
  refine .get fun id => .get fun status => .get fun progress => .get fun size =>
    .get fun seconds => .get fun error => .done fun video => ?_
  cases video
  simp [and_assoc]

theorem read_respects (hR : Faithful R) : read.Respects R := by
  have htext : (Reading.option .string).Respects R := hR.option nofun hR.string
  apply read_gathers.respects fields_plain hR
  simp only [columns, List.forall_mem_cons]
  exact ⟨hR.string, hR.string, hR.option nofun (hR.natural (by decide)), htext, htext,
    hR.option nofun (ErrorObject.read_respects hR), nofun⟩

theorem takes_error : read.Takes fields ErrorObject.slot Video.error :=
  read_gathers.takes fields_plain (by simp [columns])

end OpenAi.Video

end VideoGateway

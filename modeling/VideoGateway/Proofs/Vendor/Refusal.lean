import VideoGateway.Gateway.Basic
import VideoGateway.Proofs.Gateway.Effects
import VideoGateway.Proofs.Vendor.Answer

/-!
# What counts as a refusal

An error object with a message decides an answer, whatever else the answer says:
the task has failed, a request is not accepted, a file is not found. A verdict
other than zero does so as well, with words of the gateway where the vendor has
none; but a message of blanks is not replaced and counts as no error.
-/
namespace VideoGateway

open Document (Field Slot Reading Record)

namespace VendorError

theorem new?_of_told {code message : String} (h : Text.isBlankText message = false) :
    new? code message = some ⟨code, message, h⟩ := by
  simp [new?, h]

theorem text_eq_append (e : VendorError) : ∃ before, e.text = before ++ e.message := by
  unfold text
  split
  · exact ⟨"", by simp⟩
  · exact ⟨_, rfl⟩

end VendorError

theorem ErrorObject.vendorError?_of_told {e : ErrorObject}
    (h : Text.isBlankText e.message = false) : e.vendorError? = some ⟨e.code, e.message, h⟩ :=
  VendorError.new?_of_told h

theorem Channel.outcome_of_error (c : Channel) {body : Bytes} {p : Poll} {e : VendorError}
    (hpoll : c.readPoll body = .ok p) (he : p.error = some e) :
    c.outcome body = .ok (.failure e.text) := by
  unfold Channel.outcome
  rw [hpoll, ok_bind, StatusTable.interpret, he]

namespace Vendor

variable {v : Vendor} {status : Http.Status} {body : Bytes}

theorem accepted_of_error {answer : Acceptance} {e : VendorError}
    (hread : Document.readText v.readAcceptance body = .ok answer) (he : answer.error = some e)
    (status : Http.Status) :
    v.accepted status body = .error (.vendor v.errorCode e.text status) := by
  unfold accepted
  dsimp only
  split
  · rw [readBody_eq_ok_iff.mpr hread]
    dsimp only
    rw [he]
  · simp [hread, Except.toOption, he]

theorem accepted_of_unreadable
    (hread : ∀ answer, Document.readText v.readAcceptance body ≠ .ok answer)
    (hstatus : status.isSuccess = true) :
    ∃ fault, v.accepted status body =
      .error (.unreadableBody fault (Text.Utf8.decodeLossy body)) := by
  obtain ⟨fault, hfault⟩ := readBody_eq_error hread
  refine ⟨fault, ?_⟩
  unfold accepted
  dsimp only
  rw [if_pos hstatus, hfault]

/-- The fields of the answer to a status question. -/
def reportFields : Vendor → List Field
  | .doubao => Doubao.Report.fields
  | .hailuo => Hailuo.Report.fields
  | .openAi => OpenAi.Video.fields

/-- The fields of the answer to a request for a task. -/
def acceptanceFields : Vendor → List Field
  | .doubao => Doubao.Submission.fields
  | .hailuo => [Hailuo.Submission.taskIdSlot.field, Hailuo.Verdict.slot.field]
  | .openAi => OpenAi.Video.fields

end Vendor

section ErrorObjects

variable {α : Type} {read : Reading α} {fields : List Field} {part : α → Option ErrorObject}
  {ms es : List (Option String × Document)} {e : ErrorObject}

theorem ErrorObject.read_answer (htakes : read.Takes fields slot part)
    (hms : Record.FitsApart fields "error" ms) (herror : (some "error", .object es true) ∈ ms)
    (he : ErrorObject.read (.object es true) = .ok e) :
    ∃ a, read (.object ms true) = .ok a ∧ part a = some e := by
  have hslot : slot.read (.object es true) = .ok (some e) := map_eq_ok_iff.mpr ⟨e, he, rfl⟩
  have hcheck : slot.field.check (.object es true) = .ok () :=
    map_eq_ok_iff.mpr ⟨some e, hslot, rfl⟩
  have hfits : Record.Fits fields ms :=
    Record.FitsApart.fits_of_mem htakes.plain (f := slot.field) hms htakes.mem herror hcheck
  obtain ⟨a, ha⟩ := htakes.read_of_fits hfits
  have hpart : slot.read (.object es true) = .ok (part a) := htakes.read_member ha herror
  exact ⟨a, ha, Except.ok.inj (hpart.symm.trans hslot)⟩

theorem ErrorObject.read_of_answer (htakes : read.Takes fields slot part) {a : α}
    (herror : (some "error", .object es true) ∈ ms) (ha : read (.object ms true) = .ok a) :
    ∃ e, ErrorObject.read (.object es true) = .ok e := by
  have hslot : slot.read (.object es true) = .ok (part a) := htakes.read_member ha herror
  obtain ⟨e, he, -⟩ := map_eq_ok_iff.mp hslot
  exact ⟨e, he⟩

end ErrorObjects

/-- A body that is an object with an error object, which has a message that is not
blank and a code of any kind or none. -/
structure TellsError (body : Bytes) (ms es : List (Option String × Document)) (message : String) :
    Prop where
  outline : Document.ofText body = (.object ms true, true)
  error : (some "error", .object es true) ∈ ms
  fits : Record.FitsApart ErrorObject.fields "code" es
  told : Text.isBlankText message = false
  message : (some "message", .string (some message)) ∈ es

namespace TellsError

variable {α : Type} {read : Reading α} {fields : List Field} {part : α → Option ErrorObject}
  {body : Bytes} {ms es : List (Option String × Document)} {message : String}

/-- With a text for a code the answer is read, and it has an error that ends with
the message. -/
theorem readText_eq_ok (h : TellsError body ms es message)
    (htakes : read.Takes fields ErrorObject.slot part) (hms : Record.FitsApart fields "error" ms)
    (hcode : ∀ d, (some "code", d) ∈ es → ∃ code, d = .string (some code)) :
    ∃ a e before, Document.readText read body = .ok a ∧
      (part a).bind ErrorObject.vendorError? = some e ∧ e.text = before ++ message := by
  obtain ⟨code, he⟩ := ErrorObject.read_object h.fits h.message hcode
  obtain ⟨a, ha, hpart⟩ := ErrorObject.read_answer htakes hms h.error he
  obtain ⟨before, htext⟩ := VendorError.text_eq_append ⟨code, message, h.told⟩
  refine ⟨a, ⟨code, message, h.told⟩, before, ?_, ?_, htext⟩
  · exact Document.readText_eq_ok_iff.mpr ⟨_, h.outline, ha⟩
  · rw [hpart, Option.bind_some]
    exact ErrorObject.vendorError?_of_told (e := ⟨code, message⟩) h.told

theorem readText_ne_ok (h : TellsError body ms es message)
    (htakes : read.Takes fields ErrorObject.slot part) {d : Document} (hd : (some "code", d) ∈ es)
    (hcode : ∀ code, d ≠ .string (some code)) (a : α) : Document.readText read body ≠ .ok a := by
  intro hread
  obtain ⟨d', houtline, ha⟩ := Document.readText_eq_ok_iff.mp hread
  obtain rfl : Document.object ms true = d' := congrArg Prod.fst (h.outline.symm.trans houtline)
  obtain ⟨e, he⟩ := ErrorObject.read_of_answer htakes h.error ha
  exact hcode e.code (ErrorObject.code_eq_of_read he hd)

end TellsError

section Refusals

variable {c : Channel} {v : Vendor} {body : Bytes} {ms es : List (Option String × Document)}
  {message : String} {d : Document}

theorem Channel.outcome_of_tellsError (hc : c.vendor ≠ .hailuo) (h : TellsError body ms es message)
    (hcode : ∀ d, (some "code", d) ∈ es → ∃ code, d = .string (some code))
    (hms : Record.FitsApart c.vendor.reportFields "error" ms) :
    ∃ before, c.outcome body = .ok (.failure (before ++ message)) := by
  have hpoll : ∃ p e before, c.readPoll body = .ok p ∧ p.error = some e ∧
      e.text = before ++ message := by
    unfold Channel.readPoll
    cases hv : c.vendor with
    | hailuo => exact absurd hv hc
    | doubao =>
      rw [hv] at hms
      obtain ⟨report, e, before, hread, he, htext⟩ :=
        h.readText_eq_ok Doubao.Report.takes_error hms hcode
      exact ⟨_, e, before, map_eq_ok_iff.mpr ⟨report, readBody_eq_ok_iff.mpr hread, rfl⟩, he, htext⟩
    | openAi =>
      rw [hv] at hms
      obtain ⟨video, e, before, hread, he, htext⟩ :=
        h.readText_eq_ok OpenAi.Video.takes_error hms hcode
      exact ⟨_, e, before, map_eq_ok_iff.mpr ⟨video, readBody_eq_ok_iff.mpr hread, rfl⟩, he, htext⟩
  obtain ⟨p, e, before, hp, he, htext⟩ := hpoll
  exact ⟨before, by rw [c.outcome_of_error hp he, htext]⟩

theorem Channel.outcome_of_unreadable_code (hc : c.vendor ≠ .hailuo)
    (h : TellsError body ms es message) (hd : (some "code", d) ∈ es)
    (hcode : ∀ code, d ≠ .string (some code)) :
    ∃ fault, c.outcome body = .error (.unreadableBody fault (Text.Utf8.decodeLossy body)) := by
  unfold Channel.outcome Channel.readPoll
  cases hv : c.vendor with
  | hailuo => exact absurd hv hc
  | doubao =>
    obtain ⟨fault, hfault⟩ :=
      readBody_eq_error (h.readText_ne_ok Doubao.Report.takes_error hd hcode)
    exact ⟨fault, by rw [hfault]; rfl⟩
  | openAi =>
    obtain ⟨fault, hfault⟩ :=
      readBody_eq_error (h.readText_ne_ok OpenAi.Video.takes_error hd hcode)
    exact ⟨fault, by rw [hfault]; rfl⟩

theorem Vendor.accepted_of_tellsError (hv : v ≠ .hailuo) (h : TellsError body ms es message)
    (hcode : ∀ d, (some "code", d) ∈ es → ∃ code, d = .string (some code))
    (hms : Record.FitsApart v.acceptanceFields "error" ms) (status : Http.Status) :
    ∃ before, v.accepted status body = .error (.vendor v.errorCode (before ++ message) status) := by
  have hread : ∃ answer e before, Document.readText v.readAcceptance body = .ok answer ∧
      answer.error = some e ∧ e.text = before ++ message := by
    cases v with
    | hailuo => exact absurd rfl hv
    | doubao =>
      obtain ⟨s, e, before, hread, he, htext⟩ :=
        h.readText_eq_ok Doubao.Submission.takes_error hms hcode
      exact ⟨_, e, before, Document.readText_map.mpr ⟨s, hread, rfl⟩, he, htext⟩
    | openAi =>
      obtain ⟨video, e, before, hread, he, htext⟩ :=
        h.readText_eq_ok OpenAi.Video.takes_error hms hcode
      exact ⟨_, e, before, Document.readText_map.mpr ⟨video, hread, rfl⟩, he, htext⟩
  obtain ⟨answer, e, before, hread, he, htext⟩ := hread
  exact ⟨before, by rw [accepted_of_error hread he, htext]⟩

theorem Vendor.accepted_of_unreadable_code (hv : v ≠ .hailuo) (h : TellsError body ms es message)
    (hd : (some "code", d) ∈ es) (hcode : ∀ code, d ≠ .string (some code)) {status : Http.Status}
    (hstatus : status.isSuccess = true) :
    ∃ fault, v.accepted status body =
      .error (.unreadableBody fault (Text.Utf8.decodeLossy body)) := by
  refine accepted_of_unreadable (fun answer hanswer => ?_) hstatus
  cases v with
  | hailuo => exact hv rfl
  | doubao =>
    obtain ⟨s, hs, -⟩ := Document.readText_map.mp hanswer
    exact h.readText_ne_ok Doubao.Submission.takes_error hd hcode s hs
  | openAi =>
    obtain ⟨video, hvideo, -⟩ := Document.readText_map.mp hanswer
    exact h.readText_ne_ok OpenAi.Video.takes_error hd hcode video hvideo

/-- An error object with a message decides the answer of a vendor that has such
objects, if its code is a text or missing: the task has failed with this message,
and a request is not accepted. With a code of any other kind the answer is taken
for unreadable, so that it means neither a failure nor a success. -/
theorem embedded_error_decides (hc : c.vendor ≠ .hailuo) (h : TellsError body ms es message) :
    ((∀ d, (some "code", d) ∈ es → ∃ code, d = .string (some code)) →
      (Record.FitsApart c.vendor.reportFields "error" ms →
        ∃ before, c.outcome body = .ok (.failure (before ++ message))) ∧
      (Record.FitsApart c.vendor.acceptanceFields "error" ms → ∀ status : Http.Status,
        status.isSuccess = true → ∃ before, c.vendor.accepted status body =
          .error ⟨.vendor, c.vendor.errorCode, before ++ message, .badGateway⟩)) ∧
    ∀ d, (some "code", d) ∈ es → (∀ code, d ≠ .string (some code)) →
      (∃ fault, c.outcome body = .error (.unreadableBody fault (Text.Utf8.decodeLossy body))) ∧
      ∀ status : Http.Status, status.isSuccess = true → ∃ fault, c.vendor.accepted status body =
        .error (.unreadableBody fault (Text.Utf8.decodeLossy body)) := by
  refine ⟨fun hcode => ⟨Channel.outcome_of_tellsError hc h hcode, fun hms status hstatus => ?_⟩,
    fun d hd hcode => ⟨Channel.outcome_of_unreadable_code hc h hd hcode, fun status hstatus =>
      Vendor.accepted_of_unreadable_code hc h hd hcode hstatus⟩⟩
  obtain ⟨before, haccepted⟩ := Vendor.accepted_of_tellsError hc h hcode hms status
  exact ⟨before, by rw [haccepted, TaskError.vendor, if_pos hstatus]⟩

/-- A success with an error object in it, whose code is written as given. -/
def goneAnswer (code : String) : Bytes :=
  Text.Utf8.encode ("\x7b\"status\":\"succeeded\",\"error\":\x7b\"code\":" ++ code ++
    ",\"message\":\"gone\"\x7d\x7d")

def goneError (code : Document) : List (Option String × Document) :=
  [(some "code", code), (some "message", .string (some "gone"))]

def goneMembers (code : Document) : List (Option String × Document) :=
  [(some "status", .string (some "succeeded")), (some "error", .object (goneError code) true)]

theorem goneAnswer_tellsError {text : String} {code : Document}
    (houtline : Document.ofText (goneAnswer text) = (.object (goneMembers code) true, true))
    (hfits : Record.FitsApart ErrorObject.fields "code" (goneError code)) :
    TellsError (goneAnswer text) (goneMembers code) (goneError code) "gone" where
  outline := houtline
  error := by simp [goneMembers]
  fits := hfits
  told := by decide +kernel
  message := by simp [goneError]

def Channel.gone : Channel :=
  .new 7 .doubao "http://doubao.test" "key"

theorem embedded_error_decides_gone :
    ∃ before, Channel.gone.outcome (goneAnswer "\"404\"") = .ok (.failure (before ++ "gone")) := by
  have houtline : Document.ofText (goneAnswer "\"404\"") =
      (.object (goneMembers (.string (some "404"))) true, true) := by with_unfolding_all rfl
  have htells := goneAnswer_tellsError houtline (by decide)
  refine ((embedded_error_decides (c := Channel.gone) (by decide) htells).1 ?_).1 (by decide)
  intro d hd
  simp [goneError] at hd
  exact ⟨_, hd⟩

/-- The error of an answer with a number for a code is not seen. -/
theorem numeric_code_unreadable : ∃ ms es, TellsError (goneAnswer "404") ms es "gone" ∧
    Record.FitsApart Channel.gone.vendor.reportFields "error" ms ∧
    Record.FitsApart Channel.gone.vendor.acceptanceFields "error" ms ∧
    (∀ reason, Channel.gone.outcome (goneAnswer "404") ≠ .ok (.failure reason)) ∧
    ∀ message, Channel.gone.vendor.accepted .ok (goneAnswer "404") ≠
      .error ⟨.vendor, Channel.gone.vendor.errorCode, message, .badGateway⟩ := by
  have houtline : Document.ofText (goneAnswer "404") =
      (.object (goneMembers (.number (some (.int 404)))) true, true) := by with_unfolding_all rfl
  have htells := goneAnswer_tellsError houtline (by decide)
  have hcode : (some "code", .number (some (.int 404))) ∈ goneError (.number (some (.int 404))) :=
    List.mem_cons_self
  obtain ⟨fault, houtcome⟩ :=
    Channel.outcome_of_unreadable_code (c := Channel.gone) (by decide) htells hcode (by simp)
  have hstatus : Http.Status.isSuccess .ok = true := by decide
  obtain ⟨fault', haccepted⟩ := Vendor.accepted_of_unreadable_code (v := Channel.gone.vendor)
    (by decide) htells hcode (by simp) hstatus
  refine ⟨_, _, htells, by decide, by decide, fun reason => ?_, fun message => ?_⟩
  · rw [houtcome]
    exact nofun
  · rw [haccepted]
    simp [TaskError.unreadableBody, TaskError.parse]

end Refusals

namespace Hailuo

theorem intText_isEmpty (n : Int) : (Text.intText n).isEmpty = false := by
  have hnat : ∀ m, (Text.natText m).isEmpty = false := by
    intro m
    simp [Text.natText, Nat.toDigits_ne_nil]
  cases n with
  | ofNat m => exact hnat m
  | negSucc m => simp [Text.intText]

namespace Verdict

variable {v : Verdict}

/-- The message, or the gateway's own where there is none. -/
def words (v : Verdict) : String :=
  if v.message.isEmpty then "request rejected" else v.message

def text (v : Verdict) : String :=
  "[" ++ Text.intText v.code ++ "] " ++ v.words

/-- The verdict counts as an error: it is not zero, and its message is missing
altogether or more than blanks. -/
def Told (v : Verdict) : Prop :=
  v.code ≠ 0 ∧ (v.message = "" ∨ Text.isBlankText v.message = false)

theorem isBlankText_words (v : Verdict) :
    Text.isBlankText v.words = true ↔ v.message ≠ "" ∧ Text.isBlankText v.message = true := by
  have hown : Text.isBlankText "request rejected" = false := by decide +kernel
  unfold words
  by_cases hempty : v.message = ""
  · simp [hempty, hown]
  · simp [hempty]

theorem vendorError?_of_told (h : v.Told) : ∃ e, v.vendorError? = some e ∧ e.text = v.text := by
  obtain ⟨hcode, hmessage⟩ := h
  have hwords : Text.isBlankText v.words = false := by
    rw [Bool.eq_false_iff, ne_eq, isBlankText_words]
    rintro ⟨hne, hblank⟩
    rcases hmessage with hempty | htold
    · exact hne hempty
    · simp [hblank] at htold
  refine ⟨⟨Text.intText v.code, v.words, hwords⟩, ?_, ?_⟩
  · rw [vendorError?, if_neg hcode]
    exact VendorError.new?_of_told hwords
  · simp [VendorError.text, intText_isEmpty, text]

/-- A verdict other than zero with a message of blanks is swallowed. -/
theorem vendorError?_of_blank (hne : v.message ≠ "") (hblank : Text.isBlankText v.message = true) :
    v.vendorError? = none := by
  have hwords : Text.isBlankText v.words = true := v.isBlankText_words.mpr ⟨hne, hblank⟩
  unfold vendorError?
  split
  · rfl
  · simp only [VendorError.new?]
    exact dif_pos hwords

end Verdict

variable {σ : Type} {env : Surroundings σ} {w w₁ w₂ : World σ} {c : Channel} {body answer : Bytes}

theorem readPoll_eq_ok (hc : c.vendor = .hailuo) {report : Report}
    (hread : Document.readText Report.read body = .ok report) :
    c.readPoll body = .ok report.poll := by
  unfold Channel.readPoll
  rw [hc]
  exact map_eq_ok_iff.mpr ⟨report, readBody_eq_ok_iff.mpr hread, rfl⟩

theorem outcome_of_told (hc : c.vendor = .hailuo) {report : Report}
    (hread : Document.readText Report.read body = .ok report) (htold : report.verdict.Told) :
    c.outcome body = .ok (.failure report.verdict.text) := by
  obtain ⟨e, he, htext⟩ := Verdict.vendorError?_of_told htold
  rw [c.outcome_of_error (readPoll_eq_ok hc hread) he, htext]

theorem outcome_of_blank (hc : c.vendor = .hailuo) {report : Report}
    (hread : Document.readText Report.read body = .ok report) (hne : report.verdict.message ≠ "")
    (hblank : Text.isBlankText report.verdict.message = true) :
    c.outcome body = c.vendor.statuses.interpret { report.poll with error := none } := by
  have herror : report.poll.error = none := Verdict.vendorError?_of_blank hne hblank
  rw [← herror, Channel.outcome, readPoll_eq_ok hc hread, ok_bind]

/-- A verdict that is told decides the answer to a request for a task, whatever
the status of the answer. -/
theorem accepted_of_told {s : Submission}
    (hread : Document.readText Submission.read body = .ok s) (htold : s.verdict.Told)
    (status : Http.Status) :
    Vendor.hailuo.accepted status body =
      .error (.vendor Vendor.hailuo.errorCode s.verdict.text status) := by
  obtain ⟨e, he, htext⟩ := Verdict.vendorError?_of_told htold
  have hacceptance : Document.readText Vendor.hailuo.readAcceptance body = .ok s.acceptance :=
    Document.readText_map.mpr ⟨s, hread, rfl⟩
  rw [Vendor.accepted_of_error hacceptance he, htext]

theorem downloadUrl_of_told {a : FileAnswer} (fileId : String)
    (hread : Document.readText FileAnswer.read answer = .ok a) (htold : a.verdict.Told) :
    downloadUrl fileId answer =
      .error (.vendor Vendor.hailuo.errorCode a.verdict.text .badGateway) := by
  obtain ⟨e, he, htext⟩ := Verdict.vendorError?_of_told htold
  unfold downloadUrl
  rw [readBody_eq_ok_iff.mpr hread, ok_bind, he]
  simp only [htext]

theorem fetchStatus_of_told (hc : c.vendor = .hailuo) {taskId fileId : String} {cancelled : Bool}
    {a : FileAnswer}
    (hbody : (Gateway.ask cancelled (c.statusCall taskId)).run.run env w = (.ok body, w₁))
    (hfile : fileToFind? body = some fileId)
    (hanswer : (Gateway.ask cancelled (c.fileCall fileId)).run.run env w₁ = (.ok answer, w₂))
    (hread : Document.readText FileAnswer.read answer = .ok a) (htold : a.verdict.Told) :
    (Gateway.fetchStatus c taskId cancelled).run.run env w =
      (.error (.vendor Vendor.hailuo.errorCode a.verdict.text .badGateway), w₂) := by
  unfold Gateway.fetchStatus
  rw [Attempt.run_bind_of_ok hbody]
  simp only [hc, hfile]
  rw [Attempt.run_bind_of_ok hanswer, Attempt.run_ofExcept_bind,
    downloadUrl_of_told fileId hread htold]
  rfl

/-- A verdict other than zero is never passed over, unless its message consists of
blanks: the task has failed, the request is not accepted, and a file whose place
is told with such a verdict is not found. -/
theorem told_verdict_decides (hc : c.vendor = .hailuo) :
    (∀ body report, Document.readText Report.read body = .ok report → report.verdict.Told →
      c.outcome body = .ok (.failure report.verdict.text)) ∧
    (∀ (status : Http.Status) body s, Document.readText Submission.read body = .ok s →
      s.verdict.Told →
      c.vendor.accepted status body = .error (.vendor c.vendor.errorCode s.verdict.text status)) ∧
    ∀ (env : Surroundings σ) w w₁ w₂ taskId fileId cancelled body answer (a : FileAnswer),
      (Gateway.ask cancelled (c.statusCall taskId)).run.run env w = (.ok body, w₁) →
      fileToFind? body = some fileId →
      (Gateway.ask cancelled (c.fileCall fileId)).run.run env w₁ = (.ok answer, w₂) →
      Document.readText FileAnswer.read answer = .ok a → a.verdict.Told →
      (Gateway.fetchStatus c taskId cancelled).run.run env w =
        (.error (.vendor c.vendor.errorCode a.verdict.text .badGateway), w₂) := by
  refine ⟨fun body report hread htold => outcome_of_told hc hread htold,
    fun status body s hread htold => ?_,
    fun env w w₁ w₂ taskId fileId cancelled body answer a hbody hfile hanswer hread htold => ?_⟩
  · rw [hc]
    exact accepted_of_told hread htold status
  · rw [hc]
    exact fetchStatus_of_told hc hbody hfile hanswer hread htold

def rejectedAnswer (message : String) : Bytes :=
  Text.Utf8.encode ("\x7b\"status\":\"Success\",\"video_url\":\"http://hailuo.test/koi.mp4\"," ++
    "\"base_resp\":\x7b\"status_code\":1004,\"status_msg\":\"" ++ message ++ "\"\x7d\x7d")

def rejectedReport (message : String) : Report :=
  { Report.empty with
    status := "Success"
    videoUrl := some "http://hailuo.test/koi.mp4"
    verdict := ⟨1004, message⟩ }

def sampleChannel : Channel :=
  .new 2 .hailuo "http://hailuo.test" "key"

theorem told_verdict_decides_rejected :
    sampleChannel.outcome (rejectedAnswer "") = .ok (.failure "[1004] request rejected") := by
  have hread : Document.readText Report.read (rejectedAnswer "") = .ok (rejectedReport "") := by
    decide +kernel
  have htold : (rejectedReport "").verdict.Told := ⟨by decide, .inl rfl⟩
  have hrefused := (@told_verdict_decides Unit sampleChannel rfl).1 _ _ hread htold
  rw [hrefused]
  decide +kernel

/-- A verdict whose message is a blank is passed over. -/
theorem blank_verdict_passed_over :
    Document.readText Report.read (rejectedAnswer " ") = .ok (rejectedReport " ") ∧
      (rejectedReport " ").verdict.code ≠ 0 ∧
      sampleChannel.outcome (rejectedAnswer " ") =
        .ok ⟨.success, 100, some "http://hailuo.test/koi.mp4", none, none, none⟩ := by
  have hread : Document.readText Report.read (rejectedAnswer " ") = .ok (rejectedReport " ") := by
    decide +kernel
  refine ⟨hread, by decide, ?_⟩
  rw [outcome_of_blank (c := sampleChannel) rfl hread (by decide) (by decide)]
  decide +kernel

end Hailuo

end VideoGateway

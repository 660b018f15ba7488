import VideoGateway.Proofs.Json.Rereading
import VideoGateway.Proofs.Vendor.Answer

/-!
# Answers that are kept

A task keeps the vendor's last answer as a value. Where this answer could be
read, the value is read in the same way, so nothing is shown of it that was not
known when it came.
-/
namespace VideoGateway

open Document (Field Reading rereads_faithful)
open Document.Reading (Stable)

/-- A body that was read is kept as a value that is read in the same way, or as a
text. -/
theorem readJson_rawValue {α : Type} {read : Reading α} (hread : Stable read) {body : Bytes} {a : α}
    (h : Document.readText read body = .ok a) :
    Document.readJson read (rawValue body) = .ok a ∨ ∃ s, rawValue body = .str s := by
  unfold rawValue
  cases hv : Json.parse? body with
  | none => exact .inr ⟨_, rfl⟩
  | some v => exact .inl (Document.readJson_of_parse? hread h hv)

/-- Where an answer to a request for a task is read as a report, its error is the
same or is not seen. -/
theorem Doubao.error_of_submission {d : Document} {s : Submission} {report : Report}
    (hs : Submission.read d = .ok s) (hreport : Report.read d = .ok report) :
    report.error = s.error ∨ report.error = none := by
  cases d with
  | object ms closed =>
    by_cases hmem : ∃ e, (some ErrorObject.slot.field.name, e) ∈ ms
    · obtain ⟨e, he⟩ := hmem
      have hfirst := Submission.takes_error.read_member hs he
      have hsecond := Report.takes_error.read_member hreport he
      exact .inl (Except.ok.inj (hsecond.symm.trans hfirst))
    · exact .inr (Report.takes_error.read_missing hreport (not_exists.mp hmem) rfl)
  | array ds closed =>
    have hlength : ds.length ≤ 2 := Submission.takes_error.length_le_of_read hs
    refine .inr (Report.takes_error.read_short hreport (fun hmem => ?_) rfl)
    have hearly : ErrorObject.slot.field.name ∈ (Report.fields.take 2).map Field.name :=
      List.map_subset _ ((List.take_sublist_take_left hlength).subset) hmem
    exact absurd hearly (by decide)
  | _ => cases hs

namespace Channel

variable {c : Channel} {body : Bytes}

/-- The error that a kept answer tells when a task is shown, as far as the vendor
has such errors. -/
def toldError? (c : Channel) (data : Json) : Option VendorError :=
  match c.vendor with
  | .doubao => ((Document.readJson Doubao.Report.read data).toOption.getD .empty).vendorError?
  | .hailuo => none
  | .openAi => ((Document.readJson OpenAi.Video.read data).toOption.getD .empty).vendorError?

theorem toldError?_of_report (hc : c.vendor = .doubao) {data : Json} {report : Doubao.Report}
    (h : Document.readJson Doubao.Report.read data = .ok report) :
    c.toldError? data = report.vendorError? := by
  simp [toldError?, hc, h, Except.toOption]

theorem toldError?_of_video (hc : c.vendor = .openAi) {data : Json} {video : OpenAi.Video}
    (h : Document.readJson OpenAi.Video.read data = .ok video) :
    c.toldError? data = video.vendorError? := by
  simp [toldError?, hc, h, Except.toOption]

theorem toldError?_str (s : String) : c.toldError? (.str s) = none := by
  unfold toldError?
  cases c.vendor <;> rfl

/-- It is enough to know what the value tells where it is read as its text was. -/
theorem toldError?_rawValue {α : Type} {read : Reading α} {a : α} (hstable : Stable read)
    (hread : Document.readText read body = .ok a)
    (h : Document.readJson read (rawValue body) = .ok a → c.toldError? (rawValue body) = none) :
    c.toldError? (rawValue body) = none := by
  rcases readJson_rawValue hstable hread with hkept | ⟨s, hs⟩
  · exact h hkept
  · rw [hs, toldError?_str]

theorem toldError?_of_read_video (hc : c.vendor = .openAi) {video : OpenAi.Video}
    (hread : Document.readText OpenAi.Video.read body = .ok video)
    (herror : video.vendorError? = none) : c.toldError? (rawValue body) = none := by
  have hstable : OpenAi.Video.read.Stable := OpenAi.Video.read_respects rereads_faithful
  refine toldError?_rawValue hstable hread fun hkept => ?_
  exact (toldError?_of_video hc hkept).trans herror

/-- An answer that does not mean a failure tells no error later. -/
theorem toldError?_of_outcome {o : Outcome} (h : c.outcome body = .ok o)
    (ho : o.status ≠ .failure) : c.toldError? (rawValue body) = none := by
  obtain ⟨p, hp, hinterpret⟩ := bind_eq_ok_iff.mp h
  have herror : p.error = none := by
    cases he : p.error with
    | none => rfl
    | some e =>
      rw [StatusTable.interpret, he] at hinterpret
      cases hinterpret
      exact absurd rfl ho
  unfold readPoll at hp
  cases hv : c.vendor with
  | hailuo => simp [toldError?, hv]
  | doubao =>
    rw [hv] at hp
    obtain ⟨report, hread, rfl⟩ := map_eq_ok_iff.mp hp
    have hstable : Doubao.Report.read.Stable := Doubao.Report.read_respects rereads_faithful
    refine toldError?_rawValue hstable (readBody_eq_ok_iff.mp hread) fun hkept => ?_
    exact (toldError?_of_report hv hkept).trans herror
  | openAi =>
    rw [hv] at hp
    obtain ⟨video, hread, rfl⟩ := map_eq_ok_iff.mp hp
    exact toldError?_of_read_video hv (readBody_eq_ok_iff.mp hread) herror

end Channel

theorem Vendor.accepted_eq_ok {v : Vendor} {status : Http.Status} {body : Bytes} {a : AcceptedTask}
    (h : v.accepted status body = .ok a) :
    ∃ answer, Document.readText v.readAcceptance body = .ok answer ∧ answer.error = none ∧
      a.data = rawValue body := by
  unfold accepted at h
  dsimp only at h
  split at h
  · split at h
    · cases h
    · next answer hread =>
      split at h
      · cases h
      · next herror =>
        split at h <;> cases h
        exact ⟨answer, readBody_eq_ok_iff.mp hread, herror, rfl⟩
  · cases h

namespace Channel

variable {c : Channel} {body : Bytes}

/-- An answer by which a task is accepted tells no error later. -/
theorem toldError?_of_accepted {status : Http.Status} {a : AcceptedTask}
    (h : c.vendor.accepted status body = .ok a) : c.toldError? a.data = none := by
  obtain ⟨answer, hread, herror, hdata⟩ := Vendor.accepted_eq_ok h
  rw [hdata]
  cases hv : c.vendor with
  | hailuo => simp [toldError?, hv]
  | doubao =>
    rw [hv] at hread
    obtain ⟨s, hs, rfl⟩ := Document.readText_map.mp hread
    have hstable : Doubao.Submission.read.Stable := Doubao.Submission.read_respects rereads_faithful
    refine toldError?_rawValue hstable hs ?_
    intro hkept
    -- The answer was read as one record and is shown as another, with the error in both.
    cases hreport : Document.readJson Doubao.Report.read (rawValue body) with
    | error fault =>
      unfold toldError?
      rw [hv, hreport]
      rfl
    | ok report =>
      rw [toldError?_of_report hv hreport, Doubao.Report.vendorError?]
      rcases Doubao.error_of_submission hkept hreport with hsame | hnone
      · rw [hsame]
        exact herror
      · rw [hnone]
        rfl
  | openAi =>
    rw [hv] at hread
    obtain ⟨video, hs, rfl⟩ := Document.readText_map.mp hread
    exact toldError?_of_read_video hv hs herror

end Channel

end VideoGateway

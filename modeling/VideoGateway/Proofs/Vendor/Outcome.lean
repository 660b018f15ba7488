import VideoGateway.Proofs.Basic
import VideoGateway.Proofs.Task.Lifecycle
import VideoGateway.Vendor.Exchange

/-!
# Answers have sound outcomes

Whatever a vendor answers to a status query, the outcome is one of three: the
task is under way with a progress below the end, it has a video, or it failed
for a reason. This is so because the vendors' tables give a reason with every
failure and because an error without a message does not count as one.
-/
namespace VideoGateway

theorem Text.isBlankText_append (a b : String) :
    isBlankText (a ++ b) = (isBlankText a && isBlankText b) := by
  simp [isBlankText]

theorem VendorError.isBlankText_text (e : VendorError) : Text.isBlankText e.text = false := by
  unfold text
  split
  · exact e.told
  · simp [Text.isBlankText_append, e.told]

namespace StatusTable

/-- The reason that goes with a state, if it is a failure. -/
def reason? : VendorState → Option String
  | .failed reason => some reason
  | _ => none

def Explained (t : StatusTable) : Prop :=
  ∀ entry ∈ t, ∀ reason ∈ reason? entry.2, Text.isBlankText reason = false

theorem Explained.lookup {t : StatusTable} (ht : t.Explained) {status reason : String}
    (h : t.lookup? status = some (.failed reason)) : Text.isBlankText reason = false := by
  obtain ⟨entry, hfind, hstate⟩ := Option.map_eq_some_iff.mp h
  exact ht entry (List.mem_of_find?_eq_some hfind) reason (by rw [hstate]; rfl)

theorem isBlankText_of_address? {given : Option String} {url : String}
    (h : address? given = some url) : Text.isBlankText url = false := by
  obtain ⟨-, hurl⟩ := Option.filter_eq_some_iff.mp h
  simpa using hurl

theorem interpret_sound {t : StatusTable} (ht : t.Explained) {p : Poll} {o : Outcome}
    (h : t.interpret p = .ok o) : o.Sound := by
  unfold interpret at h
  split at h
  case h_1 e _ =>
    cases h
    exact .failure e.isBlankText_text
  case h_2 =>
    split at h
    case h_1 =>
      cases h
      exact .pending rfl (by decide)
    case h_2 =>
      cases h
      refine .pending rfl ?_
      cases p.progress with
      | none => decide
      | some n =>
        simp only [Option.map_some, Option.getD_some, Outcome.finalProgress]
        omega
    case h_3 =>
      split at h
      · cases h
      · next url hurl =>
        cases h
        exact .success (isBlankText_of_address? hurl)
    case h_4 reason hlookup =>
      cases h
      exact .failure (ht.lookup hlookup)
    case h_5 =>
      cases h
      exact .pending rfl (by decide)

theorem interpret_url {t : StatusTable} {p : Poll} {o : Outcome} (h : t.interpret p = .ok o)
    {url : String} (hurl : o.url = some url) : p.resultUrl = some url := by
  unfold interpret at h
  split at h
  · cases h
    cases hurl
  · split at h
    case h_3 =>
      split at h
      · cases h
      · next given hgiven =>
        cases h
        obtain rfl : given = url := Option.some.inj hurl
        exact (Option.filter_eq_some_iff.mp hgiven).1
    all_goals
      cases h
      cases hurl

end StatusTable

theorem Vendor.statuses_explained (v : Vendor) : v.statuses.Explained := by
  unfold StatusTable.Explained
  cases v <;> decide

theorem Channel.outcome_sound {c : Channel} {body : Bytes} {o : Outcome}
    (h : c.outcome body = .ok o) : o.Sound := by
  unfold Channel.outcome at h
  cases hpoll : c.readPoll body with
  | error e =>
    rw [hpoll] at h
    cases h
  | ok poll =>
    rw [hpoll] at h
    exact StatusTable.interpret_sound c.vendor.statuses_explained h

/-- One vendor tells no address of a video, which then is a place of the channel. -/
theorem Channel.outcome_url_of_openAi {c : Channel} (hc : c.vendor = .openAi) {body : Bytes}
    {o : Outcome} (h : c.outcome body = .ok o) {url : String} (hurl : o.url = some url) :
    ∃ id, url = c.contentUrl id := by
  obtain ⟨poll, hpoll, h⟩ := bind_eq_ok_iff.mp h
  unfold Channel.readPoll at hpoll
  rw [hc] at hpoll
  obtain ⟨video, -, rfl⟩ := map_eq_ok_iff.mp hpoll
  have hgiven := StatusTable.interpret_url h hurl
  simp only [OpenAi.Video.poll] at hgiven
  split at hgiven
  · cases hgiven
  · exact ⟨video.id, (Option.some.inj hgiven).symm⟩

end VideoGateway

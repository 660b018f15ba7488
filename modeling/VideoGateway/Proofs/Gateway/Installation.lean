import VideoGateway.Gateway.Routes
import VideoGateway.Proofs.Gateway.Submission
import VideoGateway.Proofs.Price.Soundness

/-!
# Which price rules are in force

Price rules come from requests to replace them and from texts of the operator. A
request brings rules only if all of them are sound, and changes nothing otherwise. A
text of the operator that cannot be read changes nothing either, but the rules of one
that can be read are taken over as they are. So the rules in force are sound as long
as the texts are, and then no submission is priced below zero.
-/
namespace VideoGateway

namespace Body

/-- A body that is read is of JSON, not too long, and begins with what is read. -/
theorem read_eq_ok_iff {α : Type} {reading : Document.Reading α} {r : Http.Request} {a : α} :
    read reading r = .ok a ↔ announcesJson r.headers = true ∧ r.body.length ≤ maxLength ∧
      reading (Document.ofText r.body).1 = .ok a := by
  unfold read
  by_cases hheaders : announcesJson r.headers = true
  · by_cases hlength : maxLength < r.body.length
    · have hlong : ¬r.body.length ≤ maxLength := by omega
      simp [hheaders, hlength, hlong]
    · have hshort : r.body.length ≤ maxLength := by omega
      cases reading (Document.ofText r.body).1 <;> simp [hheaders, hlength, hshort, Except.mapError]
  · simp [hheaders]

end Body

namespace Gateway

variable {σ : Type} {g : Gateway} {env : Surroundings σ} {w : World σ} {r : Http.Request}

theorem handlePutRules_run : (g.handlePutRules r).run.run env w =
    match Access.authorize g.keys r.headers with
    | .error e => (.error e, w)
    | .ok () =>
      match Body.read PriceRules.read r with
      | .error fault => (.error (.badRequest ("Invalid param ratio config: " ++ fault.text)), w)
      | .ok rules =>
        match rules.unsound? with
        | some rule => (.error (unsoundRule rule), w)
        | none => (.ok rules.toJson, { w with rules := rules }) := by
  unfold handlePutRules
  rw [Attempt.run_ofExcept_bind]
  cases Access.authorize g.keys r.headers with
  | error e => rfl
  | ok _ =>
    dsimp only
    rw [Attempt.run_ofExcept_bind]
    cases Body.read PriceRules.read r with
    | error fault => rfl
    | ok rules =>
      dsimp only
      cases rules.unsound? <;> rfl

/-- The ways in which price rules come. -/
inductive Installation where
  /-- A request to replace them. -/
  | put (r : Http.Request)
  /-- A text of the operator. -/
  | update (text : Bytes)

namespace Installation

def text : Installation → Bytes
  | .put r => r.body
  | .update text => text

/-- Whether the rules are taken over, and the world afterwards. -/
def perform (g : Gateway) (env : Surroundings σ) (w : World σ) : Installation → Bool × World σ
  | .put r =>
    let (answer, after) := (g.handlePutRules r).run.run env w
    (answer.isOk, after)
  | .update text =>
    let (result, rules) := w.rules.update text
    (result.isOk, { w with rules := rules })

/-- Whoever hands over a text of the operator has looked for unsound rules in it. -/
def Checked : Installation → Prop
  | .put _ => True
  | .update text => ∀ rules, Document.readText PriceRules.read text = .ok rules → rules.Sound

instance (i : Installation) : Decidable i.Checked :=
  match i with
  | .put _ => inferInstanceAs (Decidable True)
  | .update text =>
    match h : Document.readText PriceRules.read text with
    | .error _ => .isTrue fun _ hrules => nomatch h.symm.trans hrules
    | .ok rules =>
      decidable_of_iff rules.Sound
        ⟨fun hsound _ hrules => Except.ok.inj (h.symm.trans hrules) ▸ hsound, fun hi => hi _ h⟩

end Installation

/-- The world after a row of installations. -/
def installed (g : Gateway) (env : Surroundings σ) (w : World σ) (is : List Installation) :
    World σ :=
  is.foldl (fun w i => (i.perform g env w).2) w

namespace Installation

variable {i : Installation}

theorem perform_update {text : Bytes} : (update text).perform g env w =
    ((w.rules.update text).1.isOk, { w with rules := (w.rules.update text).2 }) :=
  rfl

/-- A request is heard when it shows a key and carries a text of JSON. -/
def Heard (g : Gateway) (r : Http.Request) : Prop :=
  Access.authorize g.keys r.headers = .ok () ∧ Body.announcesJson r.headers = true ∧
    r.body.length ≤ Body.maxLength

/-- A request is refused and changes nothing, or its rules are sound and are in force. -/
theorem perform_put (g : Gateway) (env : Surroundings σ) (w : World σ) (r : Http.Request) :
    (¬(Heard g r ∧ PriceRules.Fit r.body) ∧ (put r).perform g env w = (false, w)) ∨
      ∃ rules, Heard g r ∧ PriceRules.read (Document.ofText r.body).1 = .ok rules ∧
        rules.Sound ∧ (put r).perform g env w = (true, { w with rules := rules }) := by
  unfold perform Heard
  dsimp only
  rw [handlePutRules_run]
  cases hauthorize : Access.authorize g.keys r.headers with
  | error e =>
    left
    constructor
    · rintro ⟨⟨⟨⟩, -⟩, -⟩
    · rfl
  | ok _ =>
    cases hread : Body.read PriceRules.read r with
    | error fault =>
      left
      constructor
      · rintro ⟨⟨-, hheaders, hlength⟩, rules, hrules, -⟩
        rw [Body.read_eq_ok_iff.mpr ⟨hheaders, hlength, hrules⟩] at hread
        cases hread
      · rfl
    | ok rules =>
      obtain ⟨hheaders, hlength, hrules⟩ := Body.read_eq_ok_iff.mp hread
      cases hunsound : rules.unsound? with
      | some rule =>
        left
        simp only [hunsound]
        constructor
        · rintro ⟨-, found, hfound, hsound⟩
          cases hfound.symm.trans hrules
          rw [PriceRules.unsound?_eq_none_iff.mpr hsound] at hunsound
          cases hunsound
        · rfl
      | none =>
        right
        simp only [hunsound]
        exact ⟨rules, ⟨trivial, hheaders, hlength⟩, hrules,
          PriceRules.unsound?_eq_none_iff.mp hunsound, rfl⟩

/-- Among the requests that are heard, those with sound rules are answered well. -/
theorem perform_put_eq_true_iff (h : Heard g r) :
    ((put r).perform g env w).1 = true ↔ PriceRules.Fit r.body := by
  rcases perform_put g env w r with ⟨hfit, hrun⟩ | ⟨rules, -, hrules, hsound, hrun⟩
  · simp only [hrun, Bool.false_eq_true, false_iff]
    intro hfit'
    exact hfit ⟨h, hfit'⟩
  · simp only [hrun, true_iff]
    exact ⟨rules, hrules, hsound⟩

theorem perform_of_not_fit (hi : i.Checked) (hfit : ¬PriceRules.Fit i.text) :
    i.perform g env w = (false, w) := by
  cases i with
  | put r =>
    rcases perform_put g env w r with ⟨-, hrun⟩ | ⟨rules, -, hrules, hsound, -⟩
    · exact hrun
    · exact absurd ⟨rules, hrules, hsound⟩ hfit
  | update text =>
    change ¬PriceRules.Fit text at hfit
    obtain ⟨fault, hupdate⟩ := w.rules.update_of_not_fit hfit hi
    rw [perform_update, hupdate]
    rfl

theorem perform_sound (hw : w.rules.Sound) (hi : i.Checked) :
    (i.perform g env w).2.rules.Sound := by
  cases i with
  | put r =>
    rcases perform_put g env w r with ⟨-, hrun⟩ | ⟨rules, -, -, hsound, hrun⟩
    · rw [hrun]
      exact hw
    · rw [hrun]
      exact hsound
  | update text =>
    rw [perform_update]
    cases hread : Document.readText PriceRules.read text with
    | error fault =>
      rw [PriceRules.update_of_error hread]
      exact hw
    | ok rules =>
      rw [PriceRules.update_of_readText hread]
      exact hi rules hread

end Installation

theorem installed_sound {is : List Installation} (hw : w.rules.Sound) (his : ∀ i ∈ is, i.Checked) :
    (g.installed env w is).rules.Sound := by
  induction is generalizing w with
  | nil => exact hw
  | cons i is ih =>
    apply ih
    · exact Installation.perform_sound hw (his i List.mem_cons_self)
    · intro j hj
      exact his j (List.mem_cons_of_mem i hj)

/-- Sound rules charge no submission, and record no task, below zero. -/
theorem submit_billingRatio {request : Request} {cancelled : Bool} {now : Instant}
    (hw : w.rules.Sound) {receipt : Receipt} {w' : World σ}
    (h : (g.submit request cancelled now).run.run env w = (.ok receipt, w')) :
    receipt.billingRatio.lt .zero = false ∧
      ∃ task, w.tasks.Adds task w'.tasks ∧ task.billingRatio = receipt.billingRatio := by
  obtain ⟨channel, model, task, -, hsent⟩ :=
    (submit_all_or_nothing g env w request cancelled now h).1 receipt rfl
  constructor
  · rw [hsent.receipt_billingRatio]
    exact hw.ratio_lt_zero _ _
  · exact ⟨task, hsent.added, hsent.billingRatio.trans hsent.receipt_billingRatio.symm⟩

/-- Beginning with the rules that the gateway comes with, and as long as the texts of
the operator have been looked at: a text that no request could bring in is not taken
over from the operator either, and leaves all as it was; so whatever has come in, in
whatever order, the rules in force are sound, and nothing is charged below zero. -/
theorem rules_in_force_sound {is : List Installation}
    (hstart : w.rules = .empty ∨ w.rules = .starter) (his : ∀ i ∈ is, i.Checked) :
    (∀ (u : World σ) (r : Http.Request), Installation.Heard g r →
      (((Installation.put r).perform g env u).1 = true ↔ PriceRules.Fit r.body)) ∧
    (∀ i : Installation, i.Checked → ¬PriceRules.Fit i.text →
      i.perform g env (g.installed env w is) = (false, g.installed env w is)) ∧
    (g.installed env w is).rules.Sound ∧
    ∀ (u u' : World σ) (request : Request) (cancelled : Bool) (now : Instant)
      (receipt : Receipt), u.rules = (g.installed env w is).rules →
      (g.submit request cancelled now).run.run env u = (.ok receipt, u') →
      receipt.billingRatio.lt .zero = false ∧
        ∃ task, u.tasks.Adds task u'.tasks ∧ task.billingRatio = receipt.billingRatio := by
  have hsound : (g.installed env w is).rules.Sound := by
    apply installed_sound _ his
    rcases hstart with h | h
    · rw [h]
      exact PriceRules.empty_sound
    · rw [h]
      exact PriceRules.starter_sound
  refine ⟨?_, ?_, hsound, ?_⟩
  · intro u r hheard
    exact Installation.perform_put_eq_true_iff hheard
  · intro i hi hfit
    exact Installation.perform_of_not_fit hi hfit
  · intro u u' request cancelled now receipt hu h
    exact submit_billingRatio (hu ▸ hsound) h

def sampleReplacement (rules : String) : Http.Request :=
  ⟨.put, "/api/param_ratio", [("content-type", Http.HeaderValue.applicationJson)],
    Text.Utf8.encode rules⟩

/-- One rule, with a given ratio, for all videos that are made from a prompt alone. -/
def sampleRules (ratio : String) : String :=
  "\x7b\"rules\":[\x7b\"model\":\"*\",\"param_key\":\"mode\"," ++
    "\"param_value\":\"text\",\"ratio\":" ++ ratio ++ "\x7d]\x7d"

/-- A request that is refused between two texts that are taken over. -/
def sampleInstallations : List Installation :=
  [.update (Text.Utf8.encode (sampleRules "1.5")), .put (sampleReplacement (sampleRules "-1")),
    .put (sampleReplacement (sampleRules "2"))]

theorem sample_rules_sound :
    (.fresh .starter () : World Unit).rules = .starter ∧ (∀ i ∈ sampleInstallations, i.Checked) ∧
    (sample.installed sampleSurroundings (.fresh .starter ()) sampleInstallations).rules =
      ⟨[⟨"*", "mode", "text", .ofQuotient false 2 1⟩], true⟩ ∧
    (sample.installed sampleSurroundings (.fresh .starter ()) sampleInstallations).rules.Sound := by
  have hchecked : ∀ i ∈ sampleInstallations, i.Checked := by
    decide +kernel
  refine ⟨rfl, hchecked, by decide +kernel, ?_⟩
  exact (rules_in_force_sound (.inr rfl) hchecked).2.2.1

/-- A text that has not been looked at: a request for the same rules is refused, the
operator's text is taken over, and the next video has a price below zero. -/
theorem unsound_rules_taken_over :
    let refused := (Installation.put (sampleReplacement (sampleRules "-1"))).perform sample
      sampleSurroundings (.fresh .starter ())
    let taken := (Installation.update (Text.Utf8.encode (sampleRules "-1"))).perform sample
      sampleSurroundings (.fresh .starter ())
    refused.1 = false ∧ refused.2.rules = .starter ∧ taken.1 = true ∧ ¬taken.2.rules.Sound ∧
      ((sample.submit Request.sample false ⟨0⟩).run.run sampleSurroundings taken.2).1.toOption.map
        (·.billingRatio.lt .zero) = some true := by
  decide +kernel

end Gateway

end VideoGateway

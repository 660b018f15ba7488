import VideoGateway.Proofs.Gateway.Polling
import VideoGateway.Proofs.Gateway.Tending

/-!
# What a poll asks and what it leaves

A poll of an unfinished task asks the task's own channel: how the task is going on
and, with one vendor, where its file is. It fails, or ignores what it is told, or
puts the record with the outcome in the place of the task; only then a copy of the
video may have been tried.
-/
namespace VideoGateway

variable {σ : Type} {env : Surroundings σ}

namespace Channel

/-- The questions of one poll. Without a key that can be sent there are none, and only one
vendor has the address of a video in the answer to a second one. -/
inductive Asked (c : Channel) (taskId : String) (cancelled : Bool) : List Http.Call → Prop
  | nothing : cancelled = true ∨ (∃ e, c.statusCall taskId = .error e) → Asked c taskId cancelled []
  | status {call : Http.Call} : cancelled = false → c.statusCall taskId = .ok call →
      Asked c taskId cancelled [call]
  | file {call fileCall : Http.Call} {fileId : String} : cancelled = false →
      c.vendor = .hailuo → c.statusCall taskId = .ok call → c.fileCall fileId = .ok fileCall →
      Asked c taskId cancelled [call, fileCall]

variable {c : Channel} {taskId : String} {cancelled : Bool} {calls : List Http.Call}

theorem Asked.length_le (h : c.Asked taskId cancelled calls) :
    calls.length ≤ if c.vendor = .hailuo then 2 else 1 := by
  cases h with
  | nothing => exact Nat.zero_le _
  | status =>
    show 1 ≤ _
    split <;> decide
  | file _ hvendor =>
    rw [if_pos hvendor]
    exact Nat.le_refl 2

theorem Asked.url (h : c.Asked taskId cancelled calls) {call : Http.Call} (hcall : call ∈ calls) :
    ∃ path, call.url = endpoint c.baseUrl path := by
  have hstatus {call : Http.Call} (h : c.statusCall taskId = .ok call) :
      ∃ path, call.url = endpoint c.baseUrl path := by
    obtain ⟨headers, -, h⟩ := bind_eq_ok_iff.mp h
    cases h
    cases c.vendor with
    | doubao | openAi | hailuo => exact ⟨_, rfl⟩
  have hfile {fileId : String} {call : Http.Call} (h : c.fileCall fileId = .ok call) :
      ∃ path, call.url = endpoint c.baseUrl path := by
    obtain ⟨headers, -, h⟩ := bind_eq_ok_iff.mp h
    cases h
    exact ⟨_, rfl⟩
  cases h with
  | nothing => cases hcall
  | status _ h =>
    obtain rfl := List.mem_singleton.mp hcall
    exact hstatus h
  | file _ _ h h' =>
    rcases List.mem_pair.mp hcall with rfl | rfl
    · exact hstatus h
    · exact hfile h'

end Channel

/-- The calls and waits of a copy of the video at an address. -/
def Downloads (url : String) (es : List Event) : Prop :=
  ∀ event ∈ es, event = .called (.get url []) ∨ ∃ ms, event = .waited ms

/-- The effect leaves the store alone, and what it sends is for such a copy. -/
def Effect.ForCopy (url : String) (e : Effect) : Prop :=
  e.KeepsTasks ∧ Downloads url e.events

namespace Gateway

variable (g : Gateway)

/-- The questions of a poll of a task, which its own channel asks. -/
def Asks (t : Task) (cancelled : Bool) (calls : List Http.Call) : Prop :=
  match g.channelOf t with
  | .ok channel => channel.Asked t.id cancelled calls
  | .error _ => calls = []

/-- What is done about a copy of the video, and the record after that. A copy that
cannot be made leaves the record as it is. -/
inductive Copies (t : Task) : List Event → Task → Prop
  | off : Copies t [] t
  | tried {storage : Storage} {url : String} {es : List Event} {u : Task} :
      g.storage = some storage → t.status = .success → t.resultUrl = some url →
      Downloads url es → u = t ∨ (∃ key link, u = t.withStored key link) → Copies t es u

/-- How a poll of an unfinished task ends. -/
inductive Polled (t : Task) (cancelled : Bool) (now : Instant) : Ending (Except GatewayError Task)
  /-- There is no report. -/
  | failed {calls : List Http.Call} {e : GatewayError} : g.Asks t cancelled calls →
      (∀ message, e ≠ .notFound message) → Polled t cancelled now (calls.map .called) (.error e) t
  /-- The task may not take the status that is reported. -/
  | ignored {calls : List Http.Call} : g.Asks t cancelled calls →
      Polled t cancelled now (calls.map .called) (.ok t) t
  | kept {calls : List Http.Call} {o : Outcome} {data : Json} {copying : List Event} {u : Task} :
      g.Asks t cancelled calls → o.Sound → t.status.rank ≤ o.status.rank →
      g.Copies (t.advanced o data now) copying u →
      Polled t cancelled now (calls.map .called ++ copying) (.ok u) u

theorem Copies.key {t u : Task} {es : List Event} (h : g.Copies t es u) : u.key = t.key := by
  cases h with
  | off => rfl
  | tried _ _ _ _ hu => rcases hu with rfl | ⟨key, link, rfl⟩ <;> rfl

theorem Polled.asks {t u : Task} {cancelled : Bool} {now : Instant} {es : List Event}
    {r : Except GatewayError Task} (h : g.Polled t cancelled now es r u) :
    ∃ calls copying, es = calls.map .called ++ copying ∧ g.Asks t cancelled calls ∧
      (copying = [] ∨ g.storage.isSome = true ∧ r = .ok u ∧ u.status = .success ∧
        ∃ url, u.resultUrl = some url ∧ Downloads url copying) := by
  cases h with
  | @failed calls _ hasks => exact ⟨calls, [], (List.append_nil _).symm, hasks, .inl rfl⟩
  | @ignored calls hasks => exact ⟨calls, [], (List.append_nil _).symm, hasks, .inl rfl⟩
  | @kept calls _ _ copying _ hasks _ _ hcopies =>
    refine ⟨calls, copying, rfl, hasks, ?_⟩
    cases hcopies with
    | off => exact .inl rfl
    | @tried _ url _ _ hstorage hstatus hurl hdownloads hu =>
      refine .inr ⟨by rw [hstorage, Option.isSome_some], rfl, ?_⟩
      rcases hu with rfl | ⟨key, link, rfl⟩
      · exact ⟨hstatus, url, hurl, hdownloads⟩
      · exact ⟨hstatus, url, hurl, hdownloads⟩

theorem Polled.error {t u : Task} {cancelled : Bool} {now : Instant} {es : List Event}
    {e : GatewayError} (h : g.Polled t cancelled now es (.error e) u) :
    u = t ∧ ∀ message, e ≠ .notFound message := by
  cases h with
  | failed _ he => exact ⟨rfl, he⟩

theorem ask_tends (t : Task) (cancelled : Bool) (call : Except TaskError Http.Call) :
    (ask cancelled call).run.Tends env t fun es r u => u = t ∧
      (es = [] ∧ (∃ e, r = .error e) ∧ (cancelled = true ∨ ∃ e, call = .error e) ∨
        ∃ c, es = [.called c] ∧ cancelled = false ∧ call = .ok c) := by
  cases call with
  | error e => exact .done ⟨rfl, .inl ⟨rfl, ⟨e, rfl⟩, .inr ⟨e, rfl⟩⟩⟩
  | ok c =>
    cases cancelled with
    | true => exact .done ⟨rfl, .inl ⟨rfl, ⟨.cancelled, rfl⟩, .inl rfl⟩⟩
    | false => exact .perform trivial fun reply _ => .done ⟨rfl, .inr ⟨c, rfl, rfl, rfl⟩⟩

theorem fetchStatus_tends (c : Channel) (taskId : String) (cancelled : Bool) (t : Task) :
    (fetchStatus c taskId cancelled).run.Tends env t fun es _ u => u = t ∧
      ∃ calls, es = calls.map .called ∧ c.Asked taskId cancelled calls := by
  unfold fetchStatus
  apply Attempt.tends_bind (ask_tends t cancelled (c.statusCall taskId))
  · rintro es e u ⟨rfl, ⟨rfl, -, hnone⟩ | ⟨call, rfl, hgoing, hcall⟩⟩
    · exact ⟨rfl, [], rfl, .nothing hnone⟩
    · exact ⟨rfl, [call], rfl, .status hgoing hcall⟩
  rintro es body u ⟨rfl, ⟨-, ⟨e, he⟩, -⟩ | ⟨call, rfl, hgoing, hcall⟩⟩
  · cases he
  have hasked : c.Asked taskId cancelled [call] := .status hgoing hcall
  cases hvendor : c.vendor with
  | doubao | openAi => exact .done ⟨rfl, [call], rfl, hasked⟩
  | hailuo =>
    dsimp only
    cases Hailuo.fileToFind? body with
    | none => exact .done ⟨rfl, [call], rfl, hasked⟩
    | some fileId =>
      apply Attempt.tends_bind (ask_tends u cancelled (c.fileCall fileId))
      · rintro es e v ⟨rfl, ⟨rfl, -, -⟩ | ⟨call', rfl, -, hcall'⟩⟩
        · exact ⟨rfl, [call], rfl, hasked⟩
        · exact ⟨rfl, [call, call'], rfl, .file hgoing hvendor hcall hcall'⟩
      rintro es answer v ⟨rfl, ⟨-, ⟨e, he⟩, -⟩ | ⟨call', rfl, -, hcall'⟩⟩
      · cases he
      have hboth : c.Asked taskId cancelled [call, call'] := .file hgoing hvendor hcall hcall'
      cases Hailuo.downloadUrl fileId answer with
      | error e => exact .done ⟨rfl, [call, call'], rfl, hboth⟩
      | ok url => exact .done ⟨rfl, [call, call'], rfl, hboth⟩

/-- A report asks the task's own channel. Whatever keeps it from being made, it is not
that the task is unknown. -/
theorem report_tends (t : Task) (cancelled : Bool) :
    (g.report t cancelled).run.Tends env t fun es r u => u = t ∧
      (∃ calls, es = calls.map .called ∧ g.Asks t cancelled calls) ∧
      (∀ e, r = .error e → ∀ message, e ≠ .notFound message) ∧
      ∀ told, r = .ok told → told.1.Sound := by
  unfold report Asks channelOf
  cases g.registry.byId? t.channelId with
  | none => exact .done ⟨rfl, ⟨[], rfl, rfl⟩, by rintro _ ⟨⟩ _ ⟨⟩, nofun⟩
  | some c =>
    rw [Attempt.run_ofExcept_bind]
    have hfetch : ((fetchStatus c t.id cancelled).mapError GatewayError.task).run.Tends env t
        fun es r u => u = t ∧ (∃ calls, es = calls.map .called ∧ c.Asked t.id cancelled calls) ∧
          ∀ e, r = .error e → ∀ message, e ≠ .notFound message := by
      apply Program.Tends.map
      apply (fetchStatus_tends c t.id cancelled t).mono
      rintro es r u ⟨hu, hasked⟩
      refine ⟨hu, hasked, ?_⟩
      rintro e he message rfl
      cases r <;> cases he
    apply Attempt.tends_bind hfetch
    · rintro es e u ⟨hu, hasked, herror⟩
      exact ⟨hu, hasked, fun e' he' => herror e' (Except.error.inj he' ▸ rfl), nofun⟩
    rintro es body u ⟨hu, ⟨calls, rfl, hasked⟩, -⟩
    unfold Attempt.ofTask
    rw [Attempt.run_ofExcept_bind]
    cases houtcome : c.outcome body with
    | error e =>
      refine .done ⟨hu, ⟨calls, List.append_nil _, hasked⟩, ?_, nofun⟩
      rintro _ ⟨⟩ _ ⟨⟩
    | ok o =>
      refine .done ⟨hu, ⟨calls, List.append_nil _, hasked⟩, nofun, ?_⟩
      rintro _ ⟨⟩
      exact Channel.outcome_sound houtcome

theorem withCopy_off {t : Task} (h : g.storage = none ∨ t.resultUrl = none) (now : Instant) :
    g.withCopy t now = pure t := by
  unfold withCopy
  split
  · next hstorage hurl =>
    rcases h with h | h
    · rw [h] at hstorage
      cases hstorage
    · rw [h] at hurl
      cases hurl
  · rfl

theorem withCopy_tends (t stored : Task) (now : Instant) (hstatus : t.status = .success) :
    (g.withCopy t now).Tends env stored fun es u v => v = stored ∧ g.Copies t es u := by
  cases hstorage : g.storage with
  | none =>
    rw [g.withCopy_off (.inl hstorage)]
    exact .done ⟨rfl, .off⟩
  | some storage =>
    cases hurl : t.resultUrl with
    | none =>
      rw [g.withCopy_off (.inr hurl)]
      exact .done ⟨rfl, .off⟩
    | some url =>
      have hcall : ∀ url', t.resultUrl = some url' → (Effect.call (.get url' [])).ForCopy url := by
        intro url' h
        obtain rfl : url = url' := Option.some.inj (hurl.symm.trans h)
        exact ⟨trivial, fun event hevent => .inl (List.mem_singleton.mp hevent)⟩
      have hwait (ms : Nat) : (Effect.wait ms).ForCopy url :=
        ⟨trivial, fun event hevent => .inr ⟨ms, List.mem_singleton.mp hevent⟩⟩
      have hcopy := g.withCopy_ensures t now hcall hwait fun op => ⟨trivial, nofun⟩
      apply (Program.Tends.of_ensures hcopy (fun e he => he.1) env stored).mono
      rintro es u v ⟨hv, hu, hes⟩
      refine ⟨hv, .tried hstorage hstatus hurl (fun event hevent => ?_) hu⟩
      obtain ⟨e, he, hmem⟩ := hes event hevent
      exact he.2 event hmem

theorem copying_tends (t stored : Task) (now : Instant) :
    (if t.status = .success then g.withCopy t now else pure t).Tends env stored fun es u v =>
      v = stored ∧ g.Copies t es u := by
  split
  · next hstatus => exact g.withCopy_tends t stored now hstatus
  · exact .done ⟨rfl, .off⟩

theorem keep_tends {t u : Task} (hkey : u.key = t.key) :
    (keep u).run.Tends env t fun es r v => es = [] ∧ r = .ok u ∧ v = u := by
  refine .perform hkey fun answer hanswer => ?_
  obtain rfl : answer = .ok () := hanswer
  exact .done ⟨rfl, rfl, rfl⟩

/-- Moves a task on as it is told, if it may. -/
def take (t : Task) (told : Outcome × Json) (now : Instant) : Attempt GatewayError Task :=
  match t.advance? told.1 told.2 now with
  | none => pure t
  | some u => do
    let u ← ExceptT.lift (if u.status = .success then g.withCopy u now else pure u)
    keep u

theorem follow_eq (t : Task) (cancelled : Bool) (now : Instant) :
    g.follow t cancelled now = g.report t cancelled >>= fun told => g.take t told now := rfl

theorem take_tends (t : Task) (told : Outcome × Json) (now : Instant) :
    (g.take t told now).run.Tends env t fun es r u => r = .ok u ∧
      (es = [] ∧ u = t ∨ t.status.rank ≤ told.1.status.rank ∧
        g.Copies (t.advanced told.1 told.2 now) es u) := by
  unfold take
  cases hadvance : t.advance? told.1 told.2 now with
  | none => exact .done ⟨rfl, .inl ⟨rfl, rfl⟩⟩
  | some u =>
    obtain ⟨-, hrank, rfl⟩ := Task.advance?_eq_some_iff.mp hadvance
    have hcopy : (ExceptT.lift (if (t.advanced told.1 told.2 now).status = .success
        then g.withCopy (t.advanced told.1 told.2 now) now
        else pure (t.advanced told.1 told.2 now)) :
        Attempt GatewayError Task).run.Tends env t fun es r v => v = t ∧
          ∃ u, r = .ok u ∧ g.Copies (t.advanced told.1 told.2 now) es u := by
      apply Program.Tends.map
      apply (g.copying_tends _ t now).mono
      rintro es u v ⟨hv, hcopies⟩
      exact ⟨hv, u, rfl, hcopies⟩
    apply Attempt.tends_bind hcopy
    · rintro es e v ⟨-, u, hu, -⟩
      cases hu
    rintro es u v ⟨rfl, _, ⟨⟩, hcopies⟩
    have hkey : u.key = v.key := hcopies.key
    apply (keep_tends hkey).mono
    rintro _ _ _ ⟨rfl, rfl, rfl⟩
    rw [List.append_nil]
    exact ⟨rfl, .inr ⟨hrank, hcopies⟩⟩

theorem follow_tends (t : Task) (cancelled : Bool) (now : Instant) :
    (g.follow t cancelled now).run.Tends env t (g.Polled t cancelled now) := by
  rw [follow_eq]
  apply Attempt.tends_bind (g.report_tends t cancelled)
  · rintro es e u ⟨rfl, ⟨calls, rfl, hasks⟩, herror, -⟩
    exact .failed hasks (herror e rfl)
  rintro es told u ⟨rfl, ⟨calls, rfl, hasks⟩, -, hsound⟩
  apply (g.take_tends u told now).mono
  rintro es r v ⟨rfl, ⟨rfl, rfl⟩ | ⟨hrank, hcopies⟩⟩
  · rw [List.append_nil]
    exact .ignored hasks
  · exact .kept hasks (hsound told rfl) hrank hcopies

theorem poll_tends_of_follow {t : Task} (hopen : t.isFinal = false) {cancelled : Bool}
    {now : Instant} {Q : Ending (Except GatewayError Task)}
    (h : (g.follow t cancelled now).run.Tends env t Q) :
    (g.poll t.channelId t.id cancelled now).run.Tends env t Q := by
  unfold poll
  rw [Attempt.run_effect_bind]
  refine .perform trivial fun found hfound => ?_
  obtain rfl : found = some t := hfound rfl
  simp only [hopen, Bool.false_eq_true, ↓reduceIte]
  exact h

/-- A poll of an unfinished task asks the task's channel and writes no other record. -/
theorem poll_tends {t : Task} (hopen : t.isFinal = false) (cancelled : Bool) (now : Instant) :
    (g.poll t.channelId t.id cancelled now).run.Tends env t (g.Polled t cancelled now) :=
  g.poll_tends_of_follow hopen (g.follow_tends t cancelled now)

end Gateway

end VideoGateway

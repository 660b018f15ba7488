import VideoGateway.Config
import VideoGateway.Proofs.Gateway.Written
import VideoGateway.Proofs.Vendor.KeptAnswer
import VideoGateway.Vendor.Display

/-!
# What is shown of a task

A video document has an address when the task is completed, an end when it is
finished, and an error when it failed. The error is looked for in the answer that
the task keeps as well; this answer tells none unless the task failed, except to
a reading that takes a message of blanks for one.
-/
namespace VideoGateway

open Attempt (Ensures)

theorem Config.channels_ids_nodup (env : Environment) :
    ((ofEnvironment env).channels.map Channel.id).Nodup := by
  have hid {id : Nat} {v : Vendor} {c : Channel} (h : channel? env id v = some c) : c.id = id := by
    obtain ⟨key, -, rfl⟩ := Option.map_eq_some_iff.mp h
    rfl
  have hsublist (vendors : List (Nat × Vendor)) :
      ((vendors.filterMap fun entry => channel? env entry.1 entry.2).map Channel.id).Sublist
        (vendors.map Prod.fst) := by
    induction vendors with
    | nil => exact .slnil
    | cons entry vendors ih =>
      cases hchannel : channel? env entry.1 entry.2 with
      | none => simpa [hchannel] using ih.cons entry.1
      | some c => simpa [hchannel, hid hchannel] using ih
  have hnumbers : ([1, 2, 3] : List Nat).Nodup := by decide
  exact hnumbers.sublist (hsublist [(1, Vendor.doubao), (2, .hailuo), (3, .openAi)])

namespace Registry

variable {r : Registry} {c : Channel}

theorem byId?_of_mem (hids : (r.map Channel.id).Nodup) (h : c ∈ r) : r.byId? c.id = some c := by
  cases hfind : r.byId? c.id with
  | none =>
    have hne := List.find?_eq_none.mp hfind c h
    simp at hne
  | some c' =>
    have hmem : c' ∈ r := List.mem_of_find?_eq_some hfind
    have hid : c'.id = c.id := by simpa using List.find?_some hfind
    rw [List.inj_on_of_nodup_map hids hmem h hid]

end Registry

namespace Gateway

variable {g : Gateway}

/-- Unless the task failed, its channel sees no error in the answer that is kept. -/
def Quiet (g : Gateway) (t : Task) : Prop :=
  t.status ≠ .failure → ∀ c, g.registry.byId? t.channelId = some c → c.toldError? t.data = none

theorem quiet_of_accepts (hids : (g.registry.map Channel.id).Nodup) {t : Task}
    (h : g.Accepts t) : g.Quiet t := by
  obtain ⟨channel, hmem, status, body, accepted, action, params, ratio, now, hbody, rfl⟩ := h
  intro _ c hc
  obtain rfl : channel = c := Option.some.inj ((Registry.byId?_of_mem hids hmem).symm.trans hc)
  exact Channel.toldError?_of_accepted hbody

/-- A report that is no failure tells no error later. -/
theorem Tells.quiet {t : Task} {told : Outcome × Json} (h : g.Tells t told) (now : Instant) :
    g.Quiet (t.advanced told.1 told.2 now) := by
  obtain ⟨channel, -, body, hchannel, -, houtcome, hdata⟩ := h
  intro hopen c hc
  have hc : g.registry.byId? t.channelId = some c := hc
  rw [channelOf, hc] at hchannel
  obtain rfl : c = channel := Except.ok.inj hchannel
  show c.toldError? told.2 = none
  rw [hdata]
  exact Channel.toldError?_of_outcome houtcome hopen

theorem poll_writes_quiet (channelId : Nat) (taskId : String) (cancelled : Bool) (now : Instant) :
    Ensures (Effect.Writes g.Quiet) (fun _ => True) (g.poll channelId taskId cancelled now) := by
  unfold poll
  refine (Ensures.effect trivial).bind fun found _ => ?_
  cases found with
  | none => exact .throw _
  | some t =>
    dsimp only
    split
    · exact .pure trivial
    · exact g.follow_ensures t cancelled now (fun _ _ _ _ => trivial) (fun _ _ _ _ _ => trivial)
        (fun _ => trivial) (fun _ => trivial) (fun _ => trivial) (fun _ h => h.quiet now)
        fun _ _ _ _ h => h.quiet now

theorem writesOnly_quiet (hids : (g.registry.map Channel.id).Nodup) : g.WritesOnly g.Quiet where
  submit r cancelled now := (g.submit_ensures r cancelled now trivial (fun _ _ _ _ _ => trivial)
    fun _ h => quiet_of_accepts hids h).mono fun _ _ => trivial
  poll c id cancelled now := (poll_writes_quiet c id cancelled now).mono fun _ _ => trivial
  expire asOf timeout now := by
    refine Program.Ensures.mono ((Ensures.effect trivial).bind fun ts _ =>
      expireAll_ensures asOf timeout now ts fun _ _ hopen => absurd rfl hopen) fun _ _ => trivial

end Gateway

namespace VideoDocument

variable (d : VideoDocument)

theorem member?_status : d.toJson.member? "status" = some (.str d.status.publicText) := by
  simp [toJson, Json.member?_object, List.lookup_append, List.lookup_cons]

theorem member?_completedAt : d.toJson.member? "completed_at" = d.completedAt.map .int := by
  simp [toJson, Json.member?_object, List.lookup_append, List.lookup_cons]

theorem member?_url : d.toJson.member? "url" = d.url.map .str := by
  simp [toJson, Json.member?_object, List.lookup_append, List.lookup_cons]

theorem member?_error : d.toJson.member? "error" = d.error.map VideoError.toJson := by
  simp [toJson, Json.member?_object, List.lookup_append, List.lookup_cons]

section OfTask

variable {t : Task} (ht : t.WellShaped)
include ht

theorem ofTask_url_isSome : (ofTask t).url.isSome = true ↔ t.status = .success := by
  unfold ofTask Task.deliveryUrl
  cases hs : t.status with
  | success =>
    rw [Task.WellShaped, hs] at ht
    obtain ⟨url, hurl, -⟩ := ht.resultUrl
    simp [hurl]
  | _ => simp

theorem ofTask_completedAt_isSome : (ofTask t).completedAt.isSome = true ↔ t.isFinal = true := by
  unfold ofTask Task.isFinal
  cases hs : t.status <;> rw [Task.WellShaped, hs] at ht <;>
    simp [ht.finishedAt, TaskStatus.isFinal]

theorem ofTask_error_isSome : (ofTask t).error.isSome = true ↔ t.status = .failure := by
  unfold ofTask
  cases hs : t.status with
  | failure =>
    rw [Task.WellShaped, hs] at ht
    obtain ⟨reason, hreason, -⟩ := ht.failReason
    simp [hreason]
  | _ => simp

end OfTask

end VideoDocument

namespace OpenAi

/-- The answer is a video with an error whose message consists of blanks. -/
def BlankError (data : Json) : Prop :=
  ∃ video e, Document.readJson Video.read data = .ok video ∧ video.error = some e ∧
    e.message ≠ "" ∧ Text.isBlankText e.message = true

/-- An error is shown if it counts as one, or if its message consists of blanks. -/
theorem Video.shownError?_isSome (video : Video) : video.shownError?.isSome = true ↔
    video.vendorError?.isSome = true ∨
      ∃ e, video.error = some e ∧ e.message ≠ "" ∧ Text.isBlankText e.message = true := by
  unfold shownError? vendorError?
  cases video.error with
  | none => simp
  | some e =>
    by_cases hempty : e.message = ""
    · have hblank : Text.isBlankText "" = true := by decide
      simp [hempty, ErrorObject.vendorError?, VendorError.new?, hblank]
    · cases hblank : Text.isBlankText e.message <;>
        simp [hempty, ErrorObject.vendorError?, VendorError.new?, hblank]

end OpenAi

namespace Channel

variable (c : Channel) (t : Task)

theorem document_status : (c.document t).status = t.status := by
  unfold document
  cases c.vendor with
  | openAi =>
    simp only [VideoDocument.withError, VideoDocument.withMetadata]
    split <;> rfl
  | _ => rfl

theorem document_completedAt :
    (c.document t).completedAt = (VideoDocument.ofTask t).completedAt := by
  unfold document
  cases c.vendor with
  | openAi =>
    simp only [VideoDocument.withError, VideoDocument.withMetadata]
    split <;> rfl
  | _ => rfl

theorem document_url_isSome :
    (c.document t).url.isSome = (VideoDocument.ofTask t).url.isSome := by
  unfold document
  cases c.vendor with
  | openAi =>
    simp only [VideoDocument.withError, VideoDocument.withMetadata]
    split
    · next h => rw [(Bool.and_eq_true_iff.mp h).1, Option.isSome_some]
    · rfl
  | _ => rfl

theorem withError_isSome (d : VideoDocument) (e : Option VideoError) :
    (d.withError e).error.isSome = true ↔ d.error.isSome = true ∨ e.isSome = true := by
  cases e <;> simp [VideoDocument.withError]

theorem shownError?_isSome (hc : c.vendor = .openAi) (data : Json) :
    ((Document.readJson OpenAi.Video.read data).toOption.getD .empty).shownError?.isSome = true ↔
      (c.toldError? data).isSome = true ∨ OpenAi.BlankError data := by
  rw [OpenAi.Video.shownError?_isSome]
  unfold toldError? OpenAi.BlankError
  rw [hc]
  cases hread : Document.readJson OpenAi.Video.read data with
  | error fault => simp [Except.toOption, OpenAi.Video.empty]
  | ok video => simp [Except.toOption]

/-- The error of a document is the reason of the failure, or one that is found in
the kept answer. -/
theorem document_error_isSome : (c.document t).error.isSome = true ↔
    (VideoDocument.ofTask t).error.isSome = true ∨ (c.toldError? t.data).isSome = true ∨
      c.vendor = .openAi ∧ OpenAi.BlankError t.data := by
  cases hc : c.vendor with
  | doubao =>
    have htold : c.toldError? t.data = ((Document.readJson Doubao.Report.read t.data).toOption.getD
        .empty).vendorError? := by
      unfold toldError?
      rw [hc]
    have hdocument : (c.document t).error = ((VideoDocument.ofTask t).withError
        ((c.toldError? t.data).map VendorError.display)).error := by
      unfold document
      rw [hc, htold]
      rfl
    simp [hdocument, withError_isSome]
  | hailuo =>
    have htold : c.toldError? t.data = none := by
      unfold toldError?
      rw [hc]
    have hdocument : (c.document t).error = (VideoDocument.ofTask t).error := by
      unfold document
      rw [hc]
      rfl
    simp [hdocument, htold]
  | openAi =>
    have hdocument : (c.document t).error = ((VideoDocument.ofTask t).withError
        ((Document.readJson OpenAi.Video.read t.data).toOption.getD .empty).shownError?).error := by
      unfold document
      rw [hc]
      simp only [VideoDocument.withError, VideoDocument.withMetadata]
      split <;> rfl
    simp [hdocument, withError_isSome, c.shownError?_isSome hc]

end Channel

namespace Gateway

variable {σ : Type} {g : Gateway} {env : Surroundings σ} {w : World σ}

/-- The document of a recorded task has an address when it says that the task is
completed, an end when it says that it is finished, and an error when it says that
it failed. One vendor's answer shows an error without a failure as well: when its
message consists of blanks, which counts as no error elsewhere. The channels of a
configuration are told apart by `Config.channels_ids_nodup`. -/
theorem document_tells_status (hids : (g.registry.map Channel.id).Nodup) {w₀ : World σ}
    (hrun : g.Reaches env w₀.withoutTasks w) {channelId : Nat} {taskId : String} {t : Task}
    (ht : w.tasks.get? channelId taskId = some t) {c : Channel}
    (hc : g.registry.byId? channelId = some c) :
    let shown := (c.document t).toJson
    let tells := fun status => shown.member? "status" = some (.str status)
    ((shown.member? "url").isSome = true ↔ tells "completed") ∧
    ((shown.member? "completed_at").isSome = true ↔ tells "completed" ∨ tells "failed") ∧
    ((shown.member? "error").isSome = true ↔
      tells "failed" ∨ c.vendor = .openAi ∧ OpenAi.BlankError t.data) := by
  have hshape : t.WellShaped := (Reaches.evolves hrun w₀.withoutTasks_wellShaped).2 _ _ _ ht
  have hquiet : g.Quiet t := (writesOnly_quiet hids).reaches hrun _ _ _ ht
  have hkey : t.key = (channelId, taskId) := TaskStore.key_of_get? ht
  -- Without a failure, the kept answer was read before as one without an error.
  have htold : t.status ≠ .failure → c.toldError? t.data = none := by
    intro hopen
    refine hquiet hopen c ?_
    rw [show t.channelId = channelId from congrArg Prod.fst hkey, hc]
  simp only [VideoDocument.member?_status, VideoDocument.member?_url,
    VideoDocument.member?_completedAt, VideoDocument.member?_error, Option.isSome_map,
    Channel.document_status, Channel.document_completedAt, Channel.document_url_isSome,
    Channel.document_error_isSome, VideoDocument.ofTask_url_isSome hshape,
    VideoDocument.ofTask_completedAt_isSome hshape, VideoDocument.ofTask_error_isSome hshape,
    Option.some.injEq, Json.str.injEq, Task.isFinal]
  cases hs : t.status with
  | failure => simp [TaskStatus.publicText, TaskStatus.isFinal]
  | _ => simp [htold (by simp [hs]), TaskStatus.publicText, TaskStatus.isFinal]

theorem sample_document_tells_status : ∃ t c, sampleFinished.tasks.get? 7 "t1" = some t ∧
    sample.registry.byId? 7 = some c ∧
    ((c.document t).toJson.member? "url").isSome = true ∧
    (c.document t).toJson.member? "error" = none := by
  obtain ⟨t, ht, hstatus⟩ := sampleFinished_success
  have hc : sample.registry.byId? 7 = some (.new 7 .doubao "http://doubao.test" "key") := by
    decide +kernel
  obtain ⟨hurl, -, herror⟩ :=
    document_tells_status (by decide) sampleFinished_reached ht hc
  refine ⟨t, _, ht, hc, hurl.mpr ?_, ?_⟩
  · simp [VideoDocument.member?_status, Channel.document_status, hstatus, TaskStatus.publicText]
  · rw [← Option.not_isSome_iff_eq_none, herror]
    simp [VideoDocument.member?_status, Channel.document_status, hstatus, TaskStatus.publicText,
      Channel.new]

def blankSample : Gateway :=
  ⟨[], [.new 3 .openAi "http://openai.test" "key"], none, ⟨0, 0⟩⟩

/-- Surroundings in which every call is answered with one video under way, which
has an error with a message of one blank. -/
def blankSurroundings : Surroundings Unit where
  reply _ _ := (.ok ⟨.ok, [], Text.Utf8.encode blankAnswer, true⟩, ())
  refuses _ _ := (false, ())
where
  blankAnswer := "\x7b\"id\":\"t1\",\"status\":\"in_progress\"," ++
    "\"error\":\x7b\"code\":\"\",\"message\":\" \"\x7d\x7d"

def blankWorld : World Unit :=
  let r := { Request.sample with model := "sora-2" }
  let w := ((blankSample.submit r false ⟨0⟩).run.run blankSurroundings (.fresh .starter ())).2
  ((blankSample.poll 3 "t1" false ⟨1⟩).run.run blankSurroundings w).2

/-- A task under way whose document has an error. -/
theorem blankWorld_shows_error :
    blankSample.Reaches blankSurroundings (World.fresh .starter ()).withoutTasks blankWorld ∧
    ∃ t c, blankWorld.tasks.get? 3 "t1" = some t ∧ blankSample.registry.byId? 3 = some c ∧
      (c.document t).toJson.member? "status" = some (.str "in_progress") ∧
      ((c.document t).toJson.member? "error").isSome = true := by
  refine ⟨.tail (.single (.submit _ false ⟨0⟩)) (.poll 3 "t1" false ⟨1⟩), ?_⟩
  have hc : blankSample.registry.byId? 3 = some (.new 3 .openAi "http://openai.test" "key") := by
    decide +kernel
  have hshown : (blankWorld.tasks.get? 3 "t1").map (fun t =>
      let d := (Channel.new 3 .openAi "http://openai.test" "key").document t
      (d.status, d.error.isSome)) = some (.inProgress, true) := by
    decide +kernel
  obtain ⟨t, ht, hdocument⟩ := Option.map_eq_some_iff.mp hshown
  obtain ⟨hstatus, herror⟩ := Prod.mk.inj hdocument
  refine ⟨t, _, ht, hc, ?_, ?_⟩
  · rw [VideoDocument.member?_status, hstatus]
    rfl
  · rw [VideoDocument.member?_error, Option.isSome_map, herror]

end Gateway

end VideoGateway

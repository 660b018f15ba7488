import VideoGateway.Task.Record

/-!
# What may become of a task

A record keeps what its submission wrote, its status and its progress never go
back, and once it is finished it stays as it is. Beside this order stands the
shape of records: an unfinished one tells nothing of an end, a success has its
video, a failure its reason. Every step takes a record of some shape to a later
one of the right shape.
-/
namespace VideoGateway

namespace TaskStatus

theorem rank_le_of_isFinal {s : TaskStatus} (t : TaskStatus) (h : s.isFinal = true) :
    t.rank ≤ s.rank := by
  cases s with
  | success | failure => cases t <;> decide
  | queued | inProgress => cases h

end TaskStatus

namespace Outcome

/-- The outcomes that an answer or a timeout can have. -/
inductive Sound : Outcome → Prop
  | pending {status : TaskStatus} {progress : Nat} :
      status.isFinal = false → progress < finalProgress → Sound (.pending status progress)
  | success {url : String} {secondaryUrl : Option String} {usage : Option Usage} :
      Text.isBlankText url = false →
      Sound ⟨.success, finalProgress, some url, secondaryUrl, none, usage⟩
  | failure {reason : String} : Text.isBlankText reason = false → Sound (.failure reason)

theorem Sound.url_of_success {o : Outcome} (h : o.Sound) (hstatus : o.status = .success) :
    ∃ url, o.url = some url := by
  cases h with
  | @pending status _ hpending =>
    obtain rfl : status = .success := hstatus
    cases hpending
  | @success url => exact ⟨url, rfl⟩
  | failure => cases hstatus

end Outcome

namespace Task

/-- The second record may stand where the first one stood earlier. -/
structure Evolves (t t' : Task) : Prop where
  id : t'.id = t.id
  channelId : t'.channelId = t.channelId
  action : t'.action = t.action
  model : t'.model = t.model
  params : t'.params = t.params
  billingRatio : t'.billingRatio = t.billingRatio
  createdAt : t'.createdAt = t.createdAt
  rank_le : t.status.rank ≤ t'.status.rank
  progress_le : t.progress ≤ t'.progress
  /-- A finished record stays as it is, in every field. -/
  final : t.isFinal = true → t' = t

theorem Evolves.refl (t : Task) : t.Evolves t :=
  ⟨rfl, rfl, rfl, rfl, rfl, rfl, rfl, Nat.le_refl _, Nat.le_refl _, fun _ => rfl⟩

theorem Evolves.trans {t u v : Task} (htu : t.Evolves u) (huv : u.Evolves v) : t.Evolves v where
  id := huv.id.trans htu.id
  channelId := huv.channelId.trans htu.channelId
  action := huv.action.trans htu.action
  model := huv.model.trans htu.model
  params := huv.params.trans htu.params
  billingRatio := huv.billingRatio.trans htu.billingRatio
  createdAt := huv.createdAt.trans htu.createdAt
  rank_le := Nat.le_trans htu.rank_le huv.rank_le
  progress_le := Nat.le_trans htu.progress_le huv.progress_le
  final := by
    intro ht
    obtain rfl := htu.final ht
    exact huv.final ht

theorem Evolves.key {t t' : Task} (h : t.Evolves t') : t'.key = t.key :=
  Prod.ext h.channelId h.id

/-- Nothing is known of the end of the task. -/
structure Pending (t : Task) : Prop where
  progress : t.progress ≤ 99
  resultUrl : t.resultUrl = none
  secondaryUrl : t.secondaryUrl = none
  failReason : t.failReason = none
  usage : t.usage = none
  storageKey : t.storageKey = none
  storageUrl : t.storageUrl = none
  finishedAt : t.finishedAt = none

/-- The video is there, and perhaps a copy of it. -/
structure Succeeded (t : Task) : Prop where
  progress : t.progress = 100
  resultUrl : ∃ url, t.resultUrl = some url ∧ Text.isBlankText url = false
  failReason : t.failReason = none
  finishedAt : t.finishedAt.isSome = true
  copy : t.storageKey.isSome = t.storageUrl.isSome

/-- There is a reason, and nothing that a success has. -/
structure Failed (t : Task) : Prop where
  progress : t.progress = 100
  failReason : ∃ reason, t.failReason = some reason ∧ Text.isBlankText reason = false
  finishedAt : t.finishedAt.isSome = true
  resultUrl : t.resultUrl = none
  secondaryUrl : t.secondaryUrl = none
  usage : t.usage = none
  storageKey : t.storageKey = none
  storageUrl : t.storageUrl = none

/-- The record has the shape that belongs to its status. -/
def WellShaped (t : Task) : Prop :=
  match t.status with
  | .queued | .inProgress => t.Pending
  | .success => t.Succeeded
  | .failure => t.Failed

theorem WellShaped.pending {t : Task} (h : t.WellShaped) (hopen : t.isFinal = false) :
    t.Pending := by
  unfold WellShaped at h
  unfold isFinal at hopen
  cases hs : t.status <;> simp [hs, TaskStatus.isFinal] at h hopen <;> exact h

theorem Pending.wellShaped {t : Task} (h : t.Pending) (hopen : t.isFinal = false) :
    t.WellShaped := by
  unfold WellShaped
  unfold isFinal at hopen
  cases hs : t.status <;> simp [hs, TaskStatus.isFinal] at hopen ⊢ <;> exact h

theorem submitted_wellShaped (id : String) (channelId : Nat) (action : Action) (params : Params)
    (billingRatio : Binary64) (data : Json) (now : Instant) :
    (submitted id channelId action params billingRatio data now).WellShaped :=
  Pending.wellShaped ⟨Nat.zero_le _, rfl, rfl, rfl, rfl, rfl, rfl, rfl⟩ rfl

theorem advance?_eq_some_iff {t t' : Task} {o : Outcome} {data : Json} {now : Instant} :
    t.advance? o data now = some t' ↔
      t.isFinal = false ∧ t.status.rank ≤ o.status.rank ∧ t.advanced o data now = t' := by
  unfold advance? isFinal
  by_cases h : t.status.mayBecome o.status
  · obtain ⟨hopen, hrank⟩ := TaskStatus.mayBecome_iff.mp h
    simp [h, hopen, hrank]
  · have hnot : ¬ (t.status.isFinal = false ∧ t.status.rank ≤ o.status.rank) :=
      fun hboth => h (TaskStatus.mayBecome_iff.mpr hboth)
    simp only [h, Bool.false_eq_true, ↓reduceIte, reduceCtorEq, false_iff]
    exact fun hall => hnot ⟨hall.1, hall.2.1⟩

theorem advance?_of_isFinal {t : Task} {o : Outcome} (hopen : t.isFinal = false)
    (ho : o.status.isFinal = true) (data : Json) (now : Instant) :
    t.advance? o data now = some (t.advanced o data now) :=
  advance?_eq_some_iff.mpr ⟨hopen, TaskStatus.rank_le_of_isFinal t.status ho, rfl⟩

/-- A record with a sound outcome has the shape of the new status. -/
theorem Pending.advanced_wellShaped {t : Task} (ht : t.Pending) {o : Outcome} (ho : o.Sound)
    (data : Json) (now : Instant) : (t.advanced o data now).WellShaped := by
  cases ho with
  | pending hopen hlt =>
    refine Pending.wellShaped ⟨?_, ?_, ?_, ?_, ?_, ht.storageKey, ht.storageUrl, ?_⟩ hopen
    · have hle := ht.progress
      simp only [Outcome.finalProgress] at hlt
      simp only [advanced, Outcome.pending, hopen, Bool.false_eq_true, ↓reduceIte]
      omega
    all_goals simp [advanced, Outcome.pending, hopen, ht.resultUrl, ht.secondaryUrl,
      ht.failReason, ht.usage, ht.finishedAt]
  | @success url _ _ hurl =>
    show Succeeded _
    refine ⟨rfl, ⟨url, rfl, hurl⟩, ht.failReason, rfl, ?_⟩
    simp [advanced, ht.storageKey, ht.storageUrl]
  | @failure reason hreason =>
    show Failed _
    exact ⟨rfl, ⟨reason, rfl, hreason⟩, rfl, ht.resultUrl, ht.secondaryUrl, ht.usage,
      ht.storageKey, ht.storageUrl⟩

/-- A sound outcome never takes the progress of an unfinished record back. -/
theorem Pending.progress_le_advanced {t : Task} (ht : t.Pending) {o : Outcome} (ho : o.Sound)
    (data : Json) (now : Instant) : t.progress ≤ (t.advanced o data now).progress := by
  have hle := ht.progress
  cases ho with
  | pending hopen _ =>
    simp only [advanced, Outcome.pending, hopen, Bool.false_eq_true, ↓reduceIte]
    exact Nat.le_max_left _ _
  | success | failure =>
    simp only [advanced, Outcome.failure, TaskStatus.isFinal, Outcome.finalProgress, ↓reduceIte]
    omega

/-- A task that moves on takes a later record of the right shape. -/
theorem advance?_evolves {t t' : Task} (ht : t.WellShaped) {o : Outcome} (ho : o.Sound)
    {data : Json} {now : Instant} (h : t.advance? o data now = some t') :
    t.Evolves t' ∧ t'.WellShaped := by
  obtain ⟨hopen, hrank, rfl⟩ := advance?_eq_some_iff.mp h
  have hpending := ht.pending hopen
  refine ⟨?_, hpending.advanced_wellShaped ho data now⟩
  exact ⟨rfl, rfl, rfl, rfl, rfl, rfl, rfl, hrank, hpending.progress_le_advanced ho data now,
    fun hfinal => by simp [hopen] at hfinal⟩

theorem WellShaped.withStored {t : Task} (h : t.WellShaped) (hs : t.status = .success)
    (key url : String) : (t.withStored key url).WellShaped := by
  unfold WellShaped at h ⊢
  simp only [Task.withStored, hs] at h ⊢
  exact ⟨h.progress, h.resultUrl, h.failReason, h.finishedAt, rfl⟩

theorem Evolves.withStored {t t' : Task} (h : t.Evolves t') (hopen : t.isFinal = false)
    (key url : String) : t.Evolves (t'.withStored key url) :=
  ⟨h.id, h.channelId, h.action, h.model, h.params, h.billingRatio, h.createdAt, h.rank_le,
    h.progress_le, fun hfinal => by simp [hopen] at hfinal⟩

end Task

end VideoGateway

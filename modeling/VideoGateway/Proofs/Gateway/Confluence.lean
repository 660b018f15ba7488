import VideoGateway.Proofs.Gateway.Pass
import VideoGateway.Proofs.Gateway.Document

/-!
# The order of the polls of a pass does not matter

Without a bucket, and with vendors whose replies depend on the calls alone, a poll of
a task sends the same and leaves the same record, apart from the times in it, whatever
the other polls do meanwhile. So all orders of the effects of a pass lead to the same
store and the same calls.
-/
namespace VideoGateway

variable {σ α : Type} {env : Surroundings σ} {w w' : World σ} {t : Task}

/-- The record without the times that a poll writes into it. -/
def Task.withoutClock (t : Task) : Task :=
  { t with updatedAt := ⟨0⟩, finishedAt := t.finishedAt.map fun _ => ⟨0⟩ }

namespace TaskStore

variable {s s' : TaskStore}

def withoutClocks (s : TaskStore) : TaskStore where
  records := s.records.map fun r => (r.1, r.2.withoutClock)
  owners := s.owners
  keyed := by
    intro r hr
    obtain ⟨old, hold, rfl⟩ := List.mem_map.mp hr
    exact s.keyed old hold
  owned := by
    rw [s.owned, List.map_map]
    rfl
  unique := s.unique

/-- Stores with the same places that have the same records there, apart from the
times, are the same apart from the times. -/
theorem withoutClocks_eq (hkeys : s.records.map Prod.fst = s'.records.map Prod.fst)
    (h : ∀ c id, (s.get? c id).map Task.withoutClock = (s'.get? c id).map Task.withoutClock) :
    s.withoutClocks = s'.withoutClocks := by
  apply eq_of_records
  have hlength : s.records.length = s'.records.length := by
    simpa using congrArg List.length hkeys
  apply List.ext_getElem
  · simpa [withoutClocks] using hlength
  intro i hi hi'
  have hi : i < s.records.length := by simpa [withoutClocks] using hi
  have hi' : i < s'.records.length := hlength ▸ hi
  have hkey : s.records[i].1 = s'.records[i].1 := by
    have hget := List.getElem_of_eq hkeys (by simpa using hi : i < (s.records.map Prod.fst).length)
    simpa using hget
  have hrecord : s.get? s.records[i].1.1 s.records[i].1.2 = some s.records[i].2 :=
    get?_eq_some_iff.mpr (List.getElem_mem hi)
  have hrecord' : s'.get? s'.records[i].1.1 s'.records[i].1.2 = some s'.records[i].2 :=
    get?_eq_some_iff.mpr (List.getElem_mem hi')
  have hsame := h s.records[i].1.1 s.records[i].1.2
  rw [hrecord, hkey, hrecord'] at hsame
  simp only [withoutClocks, List.getElem_map, hkey, Option.some.inj hsame]

end TaskStore

/-- The reply to a call depends on the call alone. -/
def Surroundings.Consistent (env : Surroundings σ) : Prop :=
  ∀ c outside outside', (env.reply c outside).1 = (env.reply c outside').1

def Effect.IsCall (e : Effect) : Prop :=
  ∃ c, e = .call c

namespace Program

/-- A program that only makes calls has one end, whenever it runs. -/
theorem Tends.of_calls {p : Program α} {Q : α → Prop} (h : p.Ensures Effect.IsCall Q)
    (henv : env.Consistent) (outside : σ) (t : Task) :
    ∃ es a, p.Tends env t fun es' a' u => es' = es ∧ a' = a ∧ u = t := by
  induction h with
  | @done a => exact ⟨[], a, .done ⟨rfl, rfl, rfl⟩⟩
  | @perform e next he _ ih =>
    obtain ⟨c, rfl⟩ := he
    obtain ⟨es, a, hrest⟩ := ih (env.reply c outside).1
    refine ⟨.called c :: es, a, .perform trivial ?_⟩
    rintro answer ⟨outside', rfl⟩
    rw [henv c outside' outside]
    apply hrest.mono
    rintro _ _ _ ⟨rfl, rfl, rfl⟩
    exact ⟨rfl, rfl, rfl⟩

end Program

/-- Two visits of the same tasks that send the same and leave the same records, apart
from their times, lead to the same store, apart from its times, and to the same calls. -/
theorem Visited.same {ts : List Task} {sent : Task → List Event} {left₁ left₂ : Task → Task}
    {v₁ v₂ : World σ} (h₁ : Visited ts sent left₁ w v₁) (h₂ : Visited ts sent left₂ w v₂)
    (hleft : ∀ t ∈ ts, (left₁ t).withoutClock = (left₂ t).withoutClock) :
    v₁.tasks.withoutClocks = v₂.tasks.withoutClocks ∧
    ∃ sent₁ sent₂, v₁.calls = w.calls ++ sent₁ ∧ v₂.calls = w.calls ++ sent₂ ∧
      sent₁.Perm sent₂ := by
  constructor
  · apply TaskStore.withoutClocks_eq (h₁.keys.trans h₂.keys.symm)
    intro c id
    by_cases hmem : (c, id) ∈ ts.map Task.key
    · obtain ⟨t, ht, hkey⟩ := List.mem_map.mp hmem
      obtain ⟨rfl, rfl⟩ := Prod.mk.inj hkey
      rw [h₁.left t ht, h₂.left t ht, Option.map_some, Option.map_some, hleft t ht]
    · rw [h₁.others c id hmem, h₂.others c id hmem]
  · obtain ⟨es₁, hevents₁, hperm₁⟩ := h₁.events
    obtain ⟨es₂, hevents₂, hperm₂⟩ := h₂.events
    refine ⟨es₁.filterMap Event.call?, es₂.filterMap Event.call?, ?_, ?_, ?_⟩
    · rw [World.calls, hevents₁, List.filterMap_append, World.calls]
    · rw [World.calls, hevents₂, List.filterMap_append, World.calls]
    · exact (hperm₁.trans hperm₂.symm).filterMap _

namespace Gateway

variable {g : Gateway} {cancelled : Task → Bool}

/-- The condition on an end that fixes the events and the record, apart from its times. -/
abbrev Fixed (es : List Event) (left : Task) : Ending α :=
  fun es' _ u => es' = es ∧ u.withoutClock = left

/-- What a task is told fixes the record that it is moved on to, apart from its times. -/
theorem take_fixed (hstorage : g.storage = none) (env : Surroundings σ) (t : Task)
    (told : Outcome × Json) :
    ∃ left, ∀ now, (g.take t told now).run.Tends env t (Fixed [] left) := by
  unfold take Task.advance?
  by_cases hmoves : t.status.mayBecome told.1.status = true
  · refine ⟨(t.advanced told.1 told.2 t.updatedAt).withoutClock, fun now => ?_⟩
    have hkey : (t.advanced told.1 told.2 now).key = t.key := rfl
    rw [if_pos hmoves]
    dsimp only
    rw [g.withCopy_off (.inl hstorage), ite_self]
    apply (keep_tends hkey).mono
    rintro _ _ _ ⟨rfl, -, rfl⟩
    constructor
    · rfl
    -- The times of the two records differ, and nothing else does.
    unfold Task.withoutClock Task.advanced
    cases told.1.status.isFinal <;> rfl
  · refine ⟨t.withoutClock, fun now => ?_⟩
    rw [if_neg hmoves]
    exact .done ⟨rfl, rfl⟩

/-- What follows the answers to the calls of a poll does not depend on the time, apart
from the times that it writes. -/
theorem follow_fixed (hstorage : g.storage = none) (henv : env.Consistent) (outside : σ)
    (t : Task) (cancelled : Bool) :
    ∃ es left, ∀ now, (g.follow t cancelled now).run.Tends env t (Fixed es left) := by
  have hcalls : (g.report t cancelled).Ensures Effect.IsCall (g.Tells t) :=
    g.report_ensures t cancelled (fun _ call _ _ => ⟨call, rfl⟩) fun _ _ call _ _ => ⟨call, rfl⟩
  obtain ⟨es, r, hreport⟩ := Program.Tends.of_calls hcalls henv outside t
  cases r with
  | error e =>
    refine ⟨es, t.withoutClock, fun now => Attempt.tends_bind hreport ?_ ?_⟩
    · rintro _ _ _ ⟨rfl, -, rfl⟩
      exact ⟨rfl, rfl⟩
    · rintro _ _ _ ⟨-, h, -⟩
      cases h
  | ok told =>
    obtain ⟨left, htake⟩ := take_fixed hstorage env t told
    refine ⟨es, left, fun now => Attempt.tends_bind hreport ?_ ?_⟩
    · rintro _ _ _ ⟨-, h, -⟩
      cases h
    · rintro _ _ _ ⟨rfl, h, rfl⟩
      cases h
      apply (htake now).mono
      rintro _ _ _ ⟨rfl, hleft⟩
      exact ⟨List.append_nil _, hleft⟩

/-- A poll fixes what it sends and the record that it leaves, apart from its times. -/
theorem poll_fixed (hstorage : g.storage = none) (henv : env.Consistent) (outside : σ)
    (t : Task) (cancelled : Bool) : ∃ es left, ∀ now,
      (g.poll t.channelId t.id cancelled now).run.Tends env t (Fixed es left) := by
  cases hfinal : t.isFinal with
  | true =>
    refine ⟨[], t.withoutClock, fun now => ?_⟩
    unfold poll
    rw [Attempt.run_effect_bind]
    refine .perform trivial fun found hfound => ?_
    obtain rfl : found = some t := hfound rfl
    simp only [hfinal, ↓reduceIte]
    exact .done ⟨rfl, rfl⟩
  | false =>
    obtain ⟨es, left, hfollow⟩ := follow_fixed hstorage henv outside t cancelled
    exact ⟨es, left, fun now => g.poll_tends_of_follow hfinal (hfollow now)⟩

/-- Every order of the effects of polls of different tasks sends what each of the polls
sends, and leaves the records that they leave. -/
theorem polls_visited_of_fixed {ts : List Task} (hts : w.tasks.Holds ts) {clock : Task → Instant}
    {sent : Task → List Event} {left : Task → Task}
    (hfixed : ∀ t now, (g.poll t.channelId t.id (cancelled t) now).run.Tends env t
      (Fixed (sent t) (left t)))
    (hpolls : Program.Interleaves env (g.polls cancelled clock ts) w w') :
    ∃ left', Visited ts sent left' w w' ∧ ∀ t ∈ ts, (left' t).withoutClock = left t := by
  obtain ⟨sent', left', hvisited, hends⟩ :=
    hpolls.visited_of_tends hts.nodup hts.get? fun t _ => hfixed t (clock t)
  refine ⟨left', hvisited.congr fun t ht => ?_, fun t ht => ?_⟩
  · obtain ⟨_, hsent, -⟩ := hends t ht
    exact hsent
  · obtain ⟨_, -, hleft⟩ := hends t ht
    exact hleft

/-- Without a bucket, and with replies that depend on the calls alone, the polls of a
pass lead to the same store, apart from the times in it, and make the same calls,
whatever the order in which the tasks are listed and in which the effects of their polls
come, and whatever the clocks say meanwhile. -/
theorem pass_confluent (hstorage : g.storage = none) (henv : env.Consistent) {timeout : Int}
    {now : Instant} {w₁ : World σ} (hexpired : ((expire now timeout now).run.run env w).2 = w₁)
    {ts₁ ts₂ : List Task} (hts₁ : ts₁.Perm w₁.tasks.unfinished)
    (hts₂ : ts₂.Perm w₁.tasks.unfinished) {clock₁ clock₂ : Task → Instant} {v₁ v₂ : World σ}
    (hpolls₁ : Program.Interleaves env (g.polls cancelled clock₁ ts₁) w₁ v₁)
    (hpolls₂ : Program.Interleaves env (g.polls cancelled clock₂ ts₂) w₁ v₂) :
    v₁.tasks.withoutClocks = v₂.tasks.withoutClocks ∧
    ∃ sent₁ sent₂, v₁.calls = w.calls ++ sent₁ ∧ v₂.calls = w.calls ++ sent₂ ∧
      sent₁.Perm sent₂ := by
  have hcalls : w₁.calls = w.calls := by
    rw [← hexpired, expire_run]
    rfl
  rw [← hcalls]
  choose sent left hfixed using fun t => poll_fixed hstorage henv w.outside t (cancelled t)
  have hholds := w₁.tasks.holds_unfinished
  obtain ⟨left₁, hvisited₁, hleft₁⟩ :=
    polls_visited_of_fixed hholds hfixed (hpolls₁.perm (hts₁.symm.map _))
  obtain ⟨left₂, hvisited₂, hleft₂⟩ :=
    polls_visited_of_fixed hholds hfixed (hpolls₂.perm (hts₂.symm.map _))
  exact hvisited₁.same hvisited₂ fun t ht => (hleft₁ t ht).trans (hleft₂ t ht).symm

/-- A gateway with channels to two vendors, and without a bucket. -/
def pair : Gateway :=
  ⟨[], sample.registry ++ blankSample.registry, none, ⟨0, 0⟩⟩

/-- Surroundings in which each of two vendors knows one finished video. -/
def pairSurroundings : Surroundings Unit where
  reply c _ := (.ok ⟨.ok, [], Text.Utf8.encode (answer c.url), true⟩, ())
  refuses _ _ := (false, ())
where
  answer url := if Text.hasStart "http://doubao.test" url then sampleSurroundings.sampleAnswer
    else "\x7b\"id\":\"t2\",\"status\":\"completed\"\x7d"

def pairStart : World Unit :=
  let w := ((pair.submit Request.sample false ⟨0⟩).run.run pairSurroundings
    (.fresh .starter ())).2
  ((pair.submit { Request.sample with model := "sora-2" } false ⟨0⟩).run.run pairSurroundings w).2

/-- Two tasks are polled in one order and in the other one, at different times. -/
theorem pair_pass_confluent :
    let w₁ := ((expire ⟨1⟩ 5 ⟨1⟩).run.run pairSurroundings pairStart).2
    let ts := w₁.tasks.unfinished
    ts.length = 2 ∧
    ((pair.pollAll false ⟨2⟩ ts).run pairSurroundings w₁).2.tasks.withoutClocks =
      ((pair.pollAll false ⟨3⟩ ts.reverse).run pairSurroundings w₁).2.tasks.withoutClocks := by
  intro w₁ ts
  have hconsistent : pairSurroundings.Consistent := fun _ _ _ => rfl
  have hforward : Program.Interleaves pairSurroundings
      (pair.polls (fun _ => false) (fun _ => ⟨2⟩) ts) w₁ _ := pair.pollAll_interleaves false ⟨2⟩ ts
  have hbackward : Program.Interleaves pairSurroundings
      (pair.polls (fun _ => false) (fun _ => ⟨3⟩) ts.reverse) w₁ _ :=
    pair.pollAll_interleaves false ⟨3⟩ ts.reverse
  have hlength : ts.length = 2 := by decide +kernel
  exact ⟨hlength,
    (pass_confluent rfl hconsistent rfl (.refl _) ts.reverse_perm hforward hbackward).1⟩

end Gateway

end VideoGateway

import VideoGateway.Proofs.Gateway.Inquiry

/-!
# What a pass expires and what it polls

A pass ends the unfinished tasks that are older than the timeout and leaves all
other records alone. It then polls the tasks that are unfinished still, each of them
once: whatever is sent belongs to the poll of one of them.
-/
namespace VideoGateway

variable {σ : Type} {env : Surroundings σ} {w w' : World σ}

namespace TaskStore

variable {s : TaskStore} {ts : List Task} {asOf : Instant} {timeout : Int} {now : Instant}

theorem get?_timedOut (asOf : Instant) (timeout : Int) (now : Instant) (hts : s.Holds ts) :
    (∀ t ∈ ts, (s.timedOut asOf timeout now ts).get? t.channelId t.id =
      some (if t.isOlder asOf timeout then t.timedOut now else t)) ∧
    ∀ c id, (c, id) ∉ ts.map Task.key →
      (s.timedOut asOf timeout now ts).get? c id = s.get? c id := by
  -- Over the tasks in turn; those that come later do not stand where the first one does.
  induction ts generalizing s with
  | nil => exact ⟨fun t ht => absurd ht List.not_mem_nil, fun _ _ _ => rfl⟩
  | cons t ts ih =>
    obtain ⟨hfresh, -⟩ := List.nodup_cons.mp hts.nodup
    have ht := hts.get? t List.mem_cons_self
    rw [timedOut, List.foldl_cons]
    by_cases hold : t.isOlder asOf timeout = true
    · have hrest : (s.replace (t.timedOut now)).Holds ts := hts.replace rfl
      obtain ⟨hlater, hothers⟩ := ih hrest
      rw [if_pos hold]
      constructor
      · intro u hu
        rcases List.mem_cons.mp hu with rfl | hu
        · rw [if_pos hold]
          exact (hothers _ _ hfresh).trans (get?_replace_self ht rfl)
        · exact hlater u hu
      · intro c id hother
        obtain ⟨hne, hother⟩ := not_or.mp (List.mem_cons.not.mp hother)
        exact (hothers c id hother).trans (get?_replace_of_ne hne)
    · obtain ⟨hlater, hothers⟩ := ih hts.tail
      rw [if_neg hold]
      constructor
      · intro u hu
        rcases List.mem_cons.mp hu with rfl | hu
        · rw [if_neg hold]
          exact (hothers _ _ hfresh).trans ht
        · exact hlater u hu
      · intro c id hother
        obtain ⟨-, hother⟩ := not_or.mp (List.mem_cons.not.mp hother)
        exact hothers c id hother

theorem notMem_unfinished_keys {c : Nat} {id : String}
    (h : ∀ t, s.get? c id = some t → t.isFinal = true) :
    (c, id) ∉ s.unfinished.map Task.key := by
  intro hmem
  obtain ⟨u, hu, hkey⟩ := List.mem_map.mp hmem
  obtain ⟨hget, hopen⟩ := mem_unfinished.mp hu
  obtain ⟨rfl, rfl⟩ := Prod.mk.inj hkey
  rw [h u hget] at hopen
  cases hopen

theorem get?_timedOut_unfinished (s : TaskStore) (c : Nat) (id : String) :
    (s.timedOut asOf timeout now s.unfinished).get? c id =
      (s.get? c id).map fun t => if t.isFinal = false ∧ timeout < asOf.since t.createdAt
        then t.timedOut now else t := by
  obtain ⟨hexpired, hothers⟩ := get?_timedOut asOf timeout now s.holds_unfinished
  cases ht : s.get? c id with
  | none =>
    have hother := notMem_unfinished_keys (s := s) fun u hu => by
      rw [ht] at hu
      cases hu
    rw [hothers c id hother, ht]
    rfl
  | some t =>
    obtain ⟨rfl, rfl⟩ := Prod.mk.inj (key_of_get? ht)
    rw [Option.map_some]
    cases hfinal : t.isFinal with
    | true =>
      have hother := notMem_unfinished_keys (s := s) fun u hu => by
        obtain rfl : t = u := Option.some.inj (ht.symm.trans hu)
        exact hfinal
      rw [hothers _ _ hother, ht]
      simp
    | false =>
      rw [hexpired t (mem_unfinished.mpr ⟨ht, hfinal⟩)]
      simp [Task.isOlder]

/-- The tasks that are unfinished after a timeout are those that were, and are not too
old. -/
theorem mem_unfinished_timedOut {t : Task} :
    t ∈ (s.timedOut asOf timeout now s.unfinished).unfinished ↔
      s.get? t.channelId t.id = some t ∧ t.isFinal = false ∧
        asOf.since t.createdAt ≤ timeout := by
  rw [mem_unfinished, get?_timedOut_unfinished]
  constructor
  · rintro ⟨hget, hopen⟩
    obtain ⟨u, hu, hbecame⟩ := Option.map_eq_some_iff.mp hget
    by_cases hexpires : u.isFinal = false ∧ timeout < asOf.since u.createdAt
    · -- The record of a timeout is finished.
      rw [if_pos hexpires] at hbecame
      rw [← hbecame] at hopen
      cases hopen
    · rw [if_neg hexpires] at hbecame
      subst hbecame
      exact ⟨hu, hopen, Int.not_lt.mp fun hlt => hexpires ⟨hopen, hlt⟩⟩
  · rintro ⟨hget, hopen, hyoung⟩
    rw [hget, Option.map_some, if_neg (fun hexpires => Int.not_lt.mpr hyoung hexpires.2)]
    exact ⟨rfl, hopen⟩

end TaskStore

namespace Gateway

variable (g : Gateway)

/-- The polls of unfinished tasks, in whatever order their effects come: each keeps to
its task, and nothing else is sent or written. -/
theorem polls_visited {ts : List Task} (hts : w.tasks.Holds ts) {cancelled : Task → Bool}
    {clock : Task → Instant} (h : Program.Interleaves env (g.polls cancelled clock ts) w w') :
    ∃ sent left, Visited ts sent left w w' ∧
      ∀ t ∈ ts, ∃ r, g.Polled t (cancelled t) (clock t) (sent t) r (left t) :=
  h.visited_of_tends hts.nodup hts.get? fun t ht => g.poll_tends (hts.isFinal t ht) _ _

/-- A pass polls one task after the other, or at the same time, once it has ended those
that take too long. -/
theorem pollPass_interleaves (env : Surroundings σ) (w : World σ) (timeout : Int)
    (cancelled : Bool) (now : Instant) :
    let w₁ := ((expire now timeout now).run.run env w).2
    Program.Interleaves env (g.polls (fun _ => cancelled) (fun _ => now) w₁.tasks.unfinished) w₁
      ((g.pollPass timeout cancelled now).run env w).2 := by
  intro w₁
  unfold pollPass
  rw [Program.run_bind]
  exact g.pollAll_interleaves cancelled now w₁.tasks.unfinished

/-- A timeout ends the unfinished tasks that are too old, counts them and does nothing
else. The polls that follow it, one after the other or in any other order of their
effects, are one poll of each task that is unfinished then: what they send is what
these polls send, every poll asks its task's own channel, and no finished record
changes. -/
theorem pass_expires_then_polls (env : Surroundings σ) (w : World σ) (asOf : Instant)
    (timeout : Int) (now : Instant) :
    let expired := (expire asOf timeout now).run.run env w
    let w₁ := expired.2
    let ts := w₁.tasks.unfinished
    expired.1 = .ok (w.tasks.unfinished.countP fun t => timeout < asOf.since t.createdAt) ∧
    w₁.events = w.events ∧
    (∀ c id, w₁.tasks.get? c id = (w.tasks.get? c id).map fun t =>
      if t.isFinal = false ∧ timeout < asOf.since t.createdAt then
        { t with
          status := .failure, progress := 100, failReason := some "task timed out",
          updatedAt := now, finishedAt := some now }
      else t) ∧
    (ts.map Task.key).Nodup ∧
    (∀ t, t ∈ ts ↔ w.tasks.get? t.channelId t.id = some t ∧ t.isFinal = false ∧
      asOf.since t.createdAt ≤ timeout) ∧
    (∀ flag, asOf = now → Program.Interleaves env (g.polls (fun _ => flag) (fun _ => now) ts) w₁
      ((g.pollPass timeout flag now).run env w).2) ∧
    ∀ (cancelled : Task → Bool) (clock : Task → Instant) w₂,
      Program.Interleaves env (g.polls cancelled clock ts) w₁ w₂ →
      (∀ c id t, w₁.tasks.get? c id = some t → t.isFinal = true →
        (c, id) ∉ ts.map Task.key ∧ w₂.tasks.get? c id = some t) ∧
      ∃ (sent : Task → List Event) (left : Task → Task) (es : List Event),
        w₂.events = w₁.events ++ es ∧ es.Perm (ts.flatMap sent) ∧
        ∀ t ∈ ts, w₂.tasks.get? t.channelId t.id = some (left t) ∧
          ∃ result, g.Polled t (cancelled t) (clock t) (sent t) result (left t) := by
  intro expired w₁ ts
  have hexpired : expired = _ := expire_run asOf timeout now
  have hworld : w₁ = { w with tasks := w.tasks.timedOut asOf timeout now w.tasks.unfinished } :=
    congrArg Prod.snd hexpired
  have htasks : w₁.tasks = w.tasks.timedOut asOf timeout now w.tasks.unfinished := by rw [hworld]
  refine ⟨congrArg Prod.fst hexpired, by rw [hworld], ?_, w₁.tasks.unfinished_keys_nodup,
    fun t => ?_, ?_, ?_⟩
  · intro c id
    rw [htasks]
    exact TaskStore.get?_timedOut_unfinished w.tasks c id
  · show t ∈ w₁.tasks.unfinished ↔ _
    rw [htasks]
    exact TaskStore.mem_unfinished_timedOut
  · rintro flag rfl
    exact g.pollPass_interleaves env w timeout flag asOf
  · intro cancelled clock w₂ hpolls
    obtain ⟨sent, left, hvisited, hends⟩ := g.polls_visited w₁.tasks.holds_unfinished hpolls
    obtain ⟨es, hevents, hperm⟩ := hvisited.events
    refine ⟨fun c id t ht hfinal => ?_, sent, left, es, hevents, hperm,
      fun t ht => ⟨hvisited.left t ht, hends t ht⟩⟩
    have hother : (c, id) ∉ ts.map Task.key := by
      apply TaskStore.notMem_unfinished_keys
      intro u hu
      obtain rfl : t = u := Option.some.inj (ht.symm.trans hu)
      exact hfinal
    exact ⟨hother, (hvisited.others c id hother).trans ht⟩

end Gateway

end VideoGateway

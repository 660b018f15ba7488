import VideoGateway.Proofs.Gateway.Reach
import VideoGateway.Proofs.Gateway.Retrying
import VideoGateway.Proofs.Gateway.Tending

/-!
# What is fetched

A download makes one call, once or more often, with waits between. A copy of a video
downloads it from the bare address of the result. The video of a task is served from
the place that the channel tells, or from the stored copy.
-/
namespace VideoGateway

variable {σ α : Type} {P : Effect → Prop} {Q : α → Prop}

/-- One call, and after that only waits and the same call again. -/
def Attempts (c : Http.Call) (es : List Event) : Prop :=
  ∃ again, es = .called c :: again ∧
    ∀ event ∈ again, event = .called c ∨ ∃ ms, event = .waited ms

theorem Attempts.eq_of_called {c call : Http.Call} {es : List Event} (h : Attempts c es)
    (hcall : .called call ∈ es) : call = c := by
  obtain ⟨again, rfl, hagain⟩ := h
  rcases List.mem_cons.mp hcall with hfirst | hlater
  · exact Event.called.inj hfirst
  · rcases hagain _ hlater with hsame | ⟨ms, hwait⟩
    · exact Event.called.inj hsame
    · cases hwait

theorem Program.Ensures.run_events {p : Program α} (hp : p.Ensures P Q) (env : Surroundings σ)
    (w : World σ) : ∃ es, (p.run env w).2.events = w.events ++ es ∧
      ∀ event ∈ es, ∃ e, P e ∧ event ∈ e.events := by
  refine (hp.run env (fun u v => ∃ es, v.events = u.events ++ es ∧
    ∀ event ∈ es, ∃ e, P e ∧ event ∈ e.events) (fun _ => ⟨[], by simp⟩) ?_ ?_ w).2
  · rintro u v w ⟨es, hv, hes⟩ ⟨es', hw, hes'⟩
    refine ⟨es ++ es', by rw [hw, hv, List.append_assoc], fun event hevent => ?_⟩
    rcases List.mem_append.mp hevent with h | h
    · exact hes event h
    · exact hes' event h
  · exact fun e w he => ⟨e.events, e.perform_events env w, fun event h => ⟨e, he, h⟩⟩

theorem Program.Ensures.run_silent {p : Program α} (hp : p.Ensures (fun e => e.events = []) Q)
    (env : Surroundings σ) (w : World σ) : (p.run env w).2.events = w.events := by
  obtain ⟨es, hrun, hes⟩ := hp.run_events env w
  have hnone : es = [] := by
    refine List.eq_nil_iff_forall_not_mem.mpr fun event hevent => ?_
    obtain ⟨e, hsilent, hmem⟩ := hes event hevent
    rw [hsilent] at hmem
    cases hmem
  rw [hrun, hnone, List.append_nil]

namespace Http.RetryPolicy

theorem attempts_repeats (p : RetryPolicy) (c : Call) (k : Nat) :
    Attempts c (.called c :: p.repeats c 0 k) := by
  refine ⟨_, rfl, fun event hevent => ?_⟩
  obtain ⟨i, -, hi⟩ := List.mem_flatMap.mp hevent
  rcases List.mem_cons.mp hi with rfl | hi
  · exact .inr ⟨_, rfl⟩
  · exact .inl (List.mem_singleton.mp hi)

theorem download_run (p : RetryPolicy) (c : Call) (env : Surroundings σ) (w : World σ) :
    ∃ es, ((p.download c).run env w).2.events = w.events ++ es ∧ Attempts c es := by
  obtain ⟨k, -, hrun⟩ := p.download_run_eq c env w
  exact ⟨_, by rw [hrun], p.attempts_repeats c k⟩

end Http.RetryPolicy

namespace Gateway

variable {g : Gateway} {t : Task}

/-- Where copies are made, the copy of a video downloads it from the address of the
result, without any header field. -/
theorem withCopy_fetches {storage : Storage} {url : String} (hstorage : g.storage = some storage)
    (hauto : storage.autoUpload = true) (hurl : t.resultUrl = some url) (now : Instant)
    (env : Surroundings σ) (w : World σ) :
    ∃ es, ((g.withCopy t now).run env w).2.events = w.events ++ es ∧
      Attempts (.get url []) es := by
  obtain ⟨es, hes, hattempts⟩ := g.retries.download_run (.get url []) env w
  refine ⟨es, ?_, hattempts⟩
  have hstored := Program.Ensures.run_silent (storage.storeReply_ensures
    (P := fun e => e.events = []) (fun _ => rfl) url t.id now
    ((g.retries.download (.get url [])).run env w).1) env
    ((g.retries.download (.get url [])).run env w).2
  unfold withCopy
  rw [hstorage, hurl, Option.filter_some, if_pos hauto]
  dsimp only
  rw [Program.run_bind, Storage.copyVideo_eq, Attempt.run_bind_of_ok (Attempt.run_lift _ _ _)]
  split
  · rw [Program.pure_eq, Program.run_done, hstored, hes]
  · rw [Program.pure_eq, Program.run_done, hstored, hes]

theorem withCopy_calls (g : Gateway) (t : Task) (now : Instant) (env : Surroundings σ)
    (w : World σ) : ∃ es, ((g.withCopy t now).run env w).2.events = w.events ++ es ∧
      ∀ call, .called call ∈ es → t.resultUrl = some call.url ∧ call = .get call.url [] := by
  obtain ⟨es, hrun, hes⟩ := Program.Ensures.run_events (g.withCopy_ensures
    (P := fun e => ∀ call, .called call ∈ e.events →
      t.resultUrl = some call.url ∧ call = .get call.url []) t now
    (fun url hurl call hcall => Event.called.inj (List.mem_singleton.mp hcall) ▸ ⟨hurl, rfl⟩)
    (fun ms call hcall => nomatch List.mem_singleton.mp hcall) fun _ _ => nofun) env w
  refine ⟨es, hrun, fun call hcall => ?_⟩
  obtain ⟨e, he, hmem⟩ := hes _ hcall
  exact he call hmem

/-- All that a task is shown with instead is another link to the copy. -/
theorem refreshed_run (g : Gateway) (t : Task) (env : Surroundings σ) (w : World σ) :
    ∃ link, ((g.refreshed t).run env w).1 = { t with storageUrl := link } :=
  (g.refreshed_ensures (P := fun _ => True) t fun _ => trivial).result env w

theorem refreshed_events (g : Gateway) (t : Task) (env : Surroundings σ) (w : World σ) :
    ((g.refreshed t).run env w).2.events = w.events :=
  (g.refreshed_ensures t fun _ => rfl).run_silent env w

theorem served_run_of_unfinished {env : Surroundings σ} {w : World σ}
    (hs : t.status ≠ .success) :
    (g.served t).run.run env w = (.error (.unfinished t.status), w) := by
  unfold served
  rw [if_pos (bne_iff_ne.mpr hs)]
  rfl

theorem served_run_of_unknown {env : Surroundings σ} {w : World σ} (hs : t.status = .success)
    (hc : g.registry.byId? t.channelId = none) :
    (g.served t).run.run env w = (.error .unknownChannel, w) := by
  unfold served
  rw [if_neg (by rw [hs]; decide), hc]
  rfl

theorem served_run {c : Channel} (hs : t.status = .success)
    (hc : g.registry.byId? t.channelId = some c) {env : Surroundings σ} {w w₁ : World σ} {u : Task}
    (hshown : (g.refreshed t).run env w = (u, w₁)) :
    (g.served t).run.run env w =
      match g.contentPlace c u with
      | .error e => (.error e, w₁)
      | .ok (.redirect link) => (redirection link, w₁)
      | .ok (.fetch call) =>
        (ofContentReply ((g.retries.download call).run env w₁).1,
          ((g.retries.download call).run env w₁).2) := by
  unfold served
  rw [if_neg (by rw [hs]; decide), hc]
  dsimp only
  rw [Attempt.run_bind_of_ok ((Attempt.run_lift _ env w).trans (by rw [hshown])),
    Attempt.run_ofExcept_bind]
  cases g.contentPlace c u with
  | error e => rfl
  | ok place =>
    cases place with
    | redirect link =>
      dsimp only
      cases redirection link <;> rfl
    | fetch call =>
      dsimp only
      rw [Attempt.run_bind_of_ok (Attempt.run_lift _ env w₁)]
      cases ofContentReply ((g.retries.download call).run env w₁).1 <;> rfl

/-- How the video of a task comes to be served: nothing is called, or it is downloaded
from the place where it is now. -/
theorem served_fetches (g : Gateway) (t : Task) (env : Surroundings σ) (w : World σ) :
    ∃ es, ((g.served t).run.run env w).2.events = w.events ++ es ∧
      (es = [] ∨ ∃ c call, g.registry.byId? t.channelId = some c ∧
        g.contentPlace c ((g.refreshed t).run env w).1 = .ok (.fetch call) ∧
        Attempts call es) := by
  have hshown := g.refreshed_events t env w
  generalize hrefresh : (g.refreshed t).run env w = shown at hshown ⊢
  obtain ⟨u, w₁⟩ := shown
  dsimp only at hshown ⊢
  by_cases hs : t.status = .success
  · cases hc : g.registry.byId? t.channelId with
    | none => exact ⟨[], by rw [served_run_of_unknown hs hc, List.append_nil], .inl rfl⟩
    | some c =>
      rw [served_run hs hc hrefresh]
      cases hplace : g.contentPlace c u with
      | error e => exact ⟨[], hshown.trans (List.append_nil _).symm, .inl rfl⟩
      | ok place =>
        cases place with
        | redirect link => exact ⟨[], hshown.trans (List.append_nil _).symm, .inl rfl⟩
        | fetch call =>
          obtain ⟨es, hes, hattempts⟩ := g.retries.download_run call env w₁
          exact ⟨es, hshown ▸ hes, .inr ⟨c, call, rfl, hplace, hattempts⟩⟩
  · exact ⟨[], by rw [served_run_of_unfinished hs, List.append_nil], .inl rfl⟩

theorem content_run (g : Gateway) {taskId : String} (hid : Text.isBlankText taskId = false)
    (env : Surroundings σ) (w : World σ) :
    (g.content taskId).run.run env w =
      match w.tasks.find? taskId with
      | none => (.error .unknownTask, w)
      | some t => (g.served t).run.run env w := by
  rw [content_eq, if_neg (by rw [hid]; decide), Attempt.run_effect_bind, Program.run_perform]
  simp only [Effect.perform]
  cases w.tasks.find? taskId <;> rfl

theorem content_fetches (g : Gateway) (taskId : String) (env : Surroundings σ) (w : World σ) :
    ∃ es, ((g.content taskId).run.run env w).2.events = w.events ++ es ∧
      (es = [] ∨ ∃ t c call, w.tasks.find? taskId = some t ∧
        g.registry.byId? t.channelId = some c ∧
        g.contentPlace c ((g.refreshed t).run env w).1 = .ok (.fetch call) ∧
        Attempts call es) := by
  cases hid : Text.isBlankText taskId with
  | true =>
    rw [content_eq, if_pos hid]
    exact ⟨[], (List.append_nil _).symm, .inl rfl⟩
  | false =>
    rw [g.content_run hid]
    cases w.tasks.find? taskId with
    | none => exact ⟨[], (List.append_nil _).symm, .inl rfl⟩
    | some t =>
      obtain ⟨es, hes, hplace⟩ := g.served_fetches t env w
      refine ⟨es, hes, hplace.imp_right ?_⟩
      rintro ⟨c, call, hc, hcall⟩
      exact ⟨t, c, call, rfl, hc, hcall⟩

end Gateway

end VideoGateway

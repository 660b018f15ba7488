import Mathlib.Order.Bounds.Defs
import VideoGateway.Gateway.World
import VideoGateway.Gateway.Download

/-!
# How often a download is tried

A download makes one call again and again, until its outcome stands or the retries are
used up. The loop counts its attempts in a word and computes its delays in words; none
of them overflows, and the numbers are those of the program.
-/
namespace VideoGateway

variable {σ : Type}

namespace Word

/-- The sum of two words, unless it is too large for one. -/
def add32? (a b : UInt32) : Option UInt32 :=
  if a.toNat + b.toNat ≤ greatest32 then some (a + b) else none

/-- A word with its bits moved up, unless all of them are moved out. -/
def shiftLeft64? (a : UInt64) (n : UInt32) : Option UInt64 :=
  if n < 64 then some (a <<< n.toUInt64) else none

/-- The product of two words, or the greatest word where it is too large. -/
def saturatingMul64 (a b : UInt64) : UInt64 :=
  if a.toNat * b.toNat ≤ greatest64 then a * b else UInt64.ofNat greatest64

theorem toNat_of_add32?_eq_some {a b s : UInt32} (h : add32? a b = some s) :
    s.toNat = a.toNat + b.toNat := by
  obtain ⟨hfits, hsum⟩ := Option.ite_none_right_eq_some.mp h
  obtain rfl := Option.some.inj hsum
  unfold greatest32 at hfits
  rw [UInt32.toNat_add, Nat.mod_eq_of_lt (by omega)]

theorem add32?_one_of_lt {a b : UInt32} (h : a < b) : ∃ next, add32? a 1 = some next := by
  have hlt : a.toNat < b.toNat := UInt32.lt_iff_toNat_lt.mp h
  have hb : b.toNat ≤ greatest32 := Nat.le_of_lt_succ b.toNat_lt
  exact ⟨_, if_pos (Nat.le_trans hlt hb)⟩

theorem toNat_min32 (a b : UInt32) : (min a b).toNat = min a.toNat b.toNat := by
  change (if a ≤ b then a else b).toNat = _
  rw [Nat.min_def, apply_ite UInt32.toNat]
  simp only [UInt32.le_iff_toNat_le]

theorem toNat_saturatingMul64 (a b : UInt64) :
    (saturatingMul64 a b).toNat = min (a.toNat * b.toNat) greatest64 := by
  unfold saturatingMul64
  split
  case isTrue h =>
    rw [UInt64.toNat_mul, Nat.mod_eq_of_lt (by unfold greatest64 at h; omega), Nat.min_eq_left h]
  case isFalse h =>
    rw [Nat.min_eq_right (by omega)]
    rfl

theorem shiftLeft64?_one_of_le {n : UInt32} (h : n.toNat ≤ 5) :
    ∃ factor, shiftLeft64? 1 n = some factor ∧ factor.toNat = Nat.pow 2 n.toNat := by
  have hn : n < 64 := UInt32.lt_iff_toNat_lt.mpr (Nat.lt_of_le_of_lt h (by decide))
  refine ⟨_, if_pos hn, ?_⟩
  rw [UInt64.toNat_shiftLeft, UInt32.toNat_toUInt64, UInt64.toNat_one, Nat.one_shiftLeft,
    Nat.mod_eq_of_lt (show n.toNat < 64 by omega)]
  exact Nat.mod_eq_of_lt (Nat.pow_lt_pow_right (by decide) (by omega))

end Word

namespace Surroundings

/-- The state of the surroundings after a call was made some times. -/
def after (env : Surroundings σ) (c : Http.Call) : Nat → σ → σ
  | 0, s => s
  | n + 1, s => env.after c n (env.reply c s).2

/-- The outcome of a call that was made `n` times before. -/
def outcome (env : Surroundings σ) (c : Http.Call) (s : σ) (n : Nat) : Http.Reply :=
  (env.reply c (env.after c n s)).1

end Surroundings

namespace Http.RetryPolicy

/-- The events of `k` more attempts after `attempt` calls and the waits between them. -/
def repeats (p : RetryPolicy) (c : Call) (attempt k : Nat) : List Event :=
  (List.range k).flatMap fun i => [.waited (p.delay (attempt + i)), .called c]

theorem repeats_succ (p : RetryPolicy) (c : Call) (attempt k : Nat) :
    p.repeats c attempt (k + 1) =
      .waited (p.delay attempt) :: .called c :: p.repeats c (attempt + 1) k := by
  simp only [repeats, List.range_succ_eq_map, List.flatMap_cons, List.flatMap_map,
    Nat.add_zero, Nat.add_succ, Nat.succ_add, List.cons_append, List.nil_append]

theorem calls_repeats (p : RetryPolicy) (c : Call) (attempt k : Nat) :
    (p.repeats c attempt k).filterMap Event.call? = List.replicate k c := by
  induction k generalizing attempt with
  | zero => rfl
  | succ k ih =>
    rw [repeats_succ, List.replicate_succ, ← ih (attempt + 1)]
    rfl

/-- The attempts that may be the last one: no retry is left, or the outcome stands. -/
def endings (env : Surroundings σ) (c : Call) (s : σ) (left : Nat) : Set Nat :=
  {i | i = left ∨ isTransient (env.outcome c s i) = false}

/-- After an outcome that may pass, the last attempt is that of the rest of the loop. -/
theorem isLeast_endings_succ {env : Surroundings σ} {c : Call} {s : σ} {left k : Nat}
    (hpass : isTransient (env.reply c s).1 = true)
    (h : IsLeast (endings env c (env.reply c s).2 left) k) :
    IsLeast (endings env c s (left + 1)) (k + 1) := by
  obtain ⟨hk, hleast⟩ := h
  refine ⟨hk.imp (congrArg Nat.succ) id, ?_⟩
  rintro (- | i) (hi | hi)
  case zero.inl => cases hi
  case zero.inr => exact nomatch hpass.symm.trans hi
  case succ.inl => exact Nat.succ_le_succ (hleast (.inl (Nat.succ.inj hi)))
  case succ.inr => exact Nat.succ_le_succ (hleast (.inr hi))

/-- An attempt whose outcome may pass is followed by a wait and the rest of the loop. -/
theorem attempts_succ_run (p : RetryPolicy) {c : Call} {env : Surroundings σ} {w : World σ}
    (hpass : isTransient (env.reply c w.outside).1 = true) (left attempt : Nat) :
    (p.attempts c (left + 1) attempt).run env w = (p.attempts c left (attempt + 1)).run env
      { w with
        events := w.events ++ [.called c, .waited (p.delay attempt)]
        outside := (env.reply c w.outside).2 } := by
  have hreply : isTransient ((Program.effect (.call c)).run env w).1 = true := hpass
  rw [attempts, Program.run_bind, if_pos hreply, Program.run_bind]
  simp [Program.effect, Effect.perform]

theorem attempts_succ_run_of_stands (p : RetryPolicy) {c : Call} {env : Surroundings σ}
    {w : World σ} (hstands : isTransient (env.reply c w.outside).1 = false)
    (left attempt : Nat) :
    (p.attempts c (left + 1) attempt).run env w = ((env.reply c w.outside).1,
      { w with events := w.events ++ [.called c], outside := (env.reply c w.outside).2 }) := by
  have hreply : ¬ isTransient ((Program.effect (.call c)).run env w).1 = true :=
    Bool.eq_false_iff.mp hstands
  rw [attempts, Program.run_bind, if_neg hreply]
  rfl

/-- The loop ends with the first attempt that may be the last one, and gives its outcome.
Besides the events, only the surroundings are changed. -/
theorem attempts_run_eq (p : RetryPolicy) (c : Call) (left attempt : Nat)
    (env : Surroundings σ) (w : World σ) :
    ∃ k, IsLeast (endings env c w.outside left) k ∧
      (p.attempts c left attempt).run env w = (env.outcome c w.outside k,
        { w with
          events := w.events ++ .called c :: p.repeats c attempt k
          outside := env.after c (k + 1) w.outside }) := by
  induction left generalizing attempt w with
  | zero => exact ⟨0, ⟨.inl rfl, fun _ _ => Nat.zero_le _⟩, rfl⟩
  | succ left ih =>
    cases hpass : isTransient (env.reply c w.outside).1 with
    | false =>
      exact ⟨0, ⟨.inr hpass, fun _ _ => Nat.zero_le _⟩,
        p.attempts_succ_run_of_stands hpass left attempt⟩
    | true =>
      rw [p.attempts_succ_run hpass]
      obtain ⟨k, hk, hrun⟩ := ih (attempt + 1) { w with
        events := w.events ++ [.called c, .waited (p.delay attempt)]
        outside := (env.reply c w.outside).2 }
      refine ⟨k + 1, isLeast_endings_succ hpass hk, hrun.trans ?_⟩
      rw [repeats_succ, List.append_assoc]
      rfl

theorem download_run_eq (p : RetryPolicy) (c : Call) (env : Surroundings σ) (w : World σ) :
    ∃ k, IsLeast (endings env c w.outside p.maxRetries) k ∧
      (p.download c).run env w = (env.outcome c w.outside k,
        { w with
          events := w.events ++ .called c :: p.repeats c 0 k
          outside := env.after c (k + 1) w.outside }) :=
  p.attempts_run_eq c p.maxRetries 0 env w

def ofWords (maxRetries : UInt32) (baseDelay : UInt64) : RetryPolicy :=
  ⟨maxRetries.toNat, baseDelay.toNat⟩

/-- The delay after an attempt, computed in words; nothing if the factor is no word. -/
def delayInWords? (baseDelay : UInt64) (attempt : UInt32) : Option UInt64 :=
  (Word.shiftLeft64? 1 (min attempt 5)).map (Word.saturatingMul64 baseDelay)

theorem delay_eq (p : RetryPolicy) (attempt : Nat) :
    p.delay attempt = min (p.baseDelay * Nat.pow 2 (min attempt 5)) Word.greatest64 := by
  rw [delay, Nat.shiftLeft_eq]
  rfl

theorem delayInWords?_eq (maxRetries : UInt32) (baseDelay : UInt64) (attempt : UInt32) :
    ∃ ms, delayInWords? baseDelay attempt = some ms ∧
      ms.toNat = (ofWords maxRetries baseDelay).delay attempt.toNat := by
  have hmin : (min attempt 5).toNat = min attempt.toNat 5 := Word.toNat_min32 attempt 5
  obtain ⟨factor, hfactor, hvalue⟩ :=
    Word.shiftLeft64?_one_of_le (n := min attempt 5) (hmin ▸ Nat.min_le_right _ _)
  refine ⟨Word.saturatingMul64 baseDelay factor, ?_, ?_⟩
  · rw [delayInWords?, hfactor, Option.map_some]
  · rw [Word.toNat_saturatingMul64, hvalue, hmin, delay_eq]
    rfl

/-- The loop with its counter and its delays in words. It gives nothing if one of them
overflows. -/
def attemptsInWords (maxRetries : UInt32) (baseDelay : UInt64) (c : Call) (attempt : UInt32) :
    Program (Option Reply) := do
  let reply ← Program.effect (.call c)
  if _ : isTransient reply = true ∧ attempt < maxRetries then
    match delayInWords? baseDelay attempt with
    | none => pure none
    | some ms =>
      Program.effect (.wait ms.toNat)
      match _ : Word.add32? attempt 1 with
      | none => pure none
      | some next => attemptsInWords maxRetries baseDelay c next
  else pure (some reply)
termination_by maxRetries.toNat - attempt.toNat
decreasing_by
  rename_i hagain hnext
  have hlt : attempt.toNat < maxRetries.toNat := UInt32.lt_iff_toNat_lt.mp hagain.2
  have hstep : next.toNat = attempt.toNat + 1 := Word.toNat_of_add32?_eq_some hnext
  omega

/-- Nothing overflows: the loop in words is the loop. -/
theorem attemptsInWords_eq (maxRetries : UInt32) (baseDelay : UInt64) (c : Call)
    {left : Nat} {attempt : UInt32} (h : attempt.toNat + left = maxRetries.toNat) :
    attemptsInWords maxRetries baseDelay c attempt =
      some <$> (ofWords maxRetries baseDelay).attempts c left attempt.toNat := by
  induction left generalizing attempt with
  | zero =>
    have hend : ¬ attempt < maxRetries := by
      rw [UInt32.lt_iff_toNat_lt]
      omega
    rw [attemptsInWords, attempts]
    simp only [hend, and_false]
    rfl
  | succ left ih =>
    have hlt : attempt < maxRetries := UInt32.lt_iff_toNat_lt.mpr (by omega)
    obtain ⟨ms, hms, hdelay⟩ := delayInWords?_eq maxRetries baseDelay attempt
    obtain ⟨next, hnext⟩ := Word.add32?_one_of_lt hlt
    have hstep : next.toNat = attempt.toNat + 1 := Word.toNat_of_add32?_eq_some hnext
    rw [attemptsInWords, attempts]
    simp only [hlt, and_true, hms, map_bind, dite_eq_ite]
    refine congrArg _ (funext fun reply => ?_)
    split
    case isFalse => rfl
    case isTrue =>
      rw [map_bind, hdelay]
      refine congrArg _ (funext fun _ => ?_)
      split
      case h_1 hnone => exact nomatch hnone.symm.trans hnext
      case h_2 next' hnext' =>
        obtain rfl : next' = next := Option.some.inj (hnext'.symm.trans hnext)
        rw [ih (by omega), hstep]

theorem isTransient_iff (reply : Reply) :
    isTransient reply = true ↔
      (∃ r, reply = .ok r ∧ r.status.code ∈ [429, 500, 502, 503, 504]) ∨
        reply = .error .timedOut ∨ reply = .error .disconnected := by
  rcases reply with failure | ⟨⟨code⟩, headers, body, complete⟩
  · cases failure <;> simp [isTransient, SendFailure.isTransient]
  · simp [isTransient, Status.isTransient, Status.tooManyRequests, Status.internalServerError,
      Status.badGateway, Status.serviceUnavailable, Status.gatewayTimeout]

/-- A download makes one call until its outcome stands, or until all retries are used up,
and gives the last outcome. Before an attempt it waits; the delays double five times, up
to the greatest word. Nothing that is counted or computed on the way overflows. -/
theorem download_tries (maxRetries : UInt32) (baseDelay : UInt64) (c : Call)
    (env : Surroundings σ) (w : World σ) :
    attemptsInWords maxRetries baseDelay c 0 =
        some <$> (ofWords maxRetries baseDelay).download c ∧
      (∃ k,
        IsLeast {i | i = maxRetries.toNat ∨ isTransient (env.outcome c w.outside i) = false} k ∧
        ((ofWords maxRetries baseDelay).download c).run env w = (env.outcome c w.outside k,
          { w with
            events := w.events ++ .called c :: (List.range k).flatMap fun i =>
              [.waited (min (baseDelay.toNat * Nat.pow 2 (min i 5)) Word.greatest64), .called c]
            outside := env.after c (k + 1) w.outside }) ∧
        (((ofWords maxRetries baseDelay).download c).run env w).2.calls =
          w.calls ++ List.replicate (k + 1) c) ∧
      ∀ reply, isTransient reply = true ↔
        (∃ r, reply = .ok r ∧ r.status.code ∈ [429, 500, 502, 503, 504]) ∨
          reply = .error .timedOut ∨ reply = .error .disconnected := by
  refine ⟨attemptsInWords_eq maxRetries baseDelay c (Nat.zero_add _), ?_, isTransient_iff⟩
  obtain ⟨k, hk, hrun⟩ := (ofWords maxRetries baseDelay).download_run_eq c env w
  refine ⟨k, hk, hrun.trans ?_, ?_⟩
  · simp only [repeats, delay_eq, Nat.zero_add]
    rfl
  · have hcalls : (Event.called c :: (ofWords maxRetries baseDelay).repeats c 0 k).filterMap
        Event.call? = List.replicate (k + 1) c :=
      congrArg (c :: ·) (calls_repeats _ c 0 k)
    rw [hrun, World.calls, List.filterMap_append, hcalls]
    rfl

end Http.RetryPolicy

end VideoGateway

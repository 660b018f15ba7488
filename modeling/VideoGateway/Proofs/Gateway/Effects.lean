import VideoGateway.Gateway.World
import VideoGateway.Proofs.Task.Store

/-!
# What programs do at most

A judgement on programs that does not depend on the surroundings: which effects
a program performs and which results it may have, whatever the answers are. It
composes along the steps of a program, and it tells of every run what the single
effects tell.
-/
namespace VideoGateway

variable {σ α β ε ε' : Type} {P : Effect → Prop} {Q : α → Prop} {R : β → Prop}

namespace Program

/-- Every effect is one of `P`, and every result one of `Q`. -/
inductive Ensures (P : Effect → Prop) (Q : α → Prop) : Program α → Prop
  | done {a : α} : Q a → Ensures P Q (.done a)
  | perform {e : Effect} {next : e.Answer → Program α} :
      P e → (∀ answer, Ensures P Q (next answer)) → Ensures P Q (.perform e next)

theorem Ensures.effect {e : Effect} (h : P e) : (effect e).Ensures P fun _ => True :=
  .perform h fun _ => .done trivial

theorem Ensures.bind {p : Program α} {f : α → Program β} (hp : p.Ensures P Q)
    (hf : ∀ a, Q a → (f a).Ensures P R) : (p >>= f).Ensures P R := by
  induction hp with
  | done ha => exact hf _ ha
  | perform he _ ih => exact .perform he ih

theorem Ensures.mono {p : Program α} {Q' : α → Prop} (hp : p.Ensures P Q)
    (hQ : ∀ a, Q a → Q' a) : p.Ensures P Q' := by
  induction hp with
  | done ha => exact .done (hQ _ ha)
  | perform he _ ih => exact .perform he ih

theorem Ensures.map {p : Program α} {f : α → β} (hp : p.Ensures P Q)
    (hf : ∀ a, Q a → R (f a)) : (f <$> p).Ensures P R := by
  rw [← bind_pure_comp]
  exact hp.bind fun a ha => .done (hf a ha)

/-- A relation between worlds that every effect of a program respects is
respected by the run as a whole. -/
theorem Ensures.run {p : Program α} (hp : p.Ensures P Q) (env : Surroundings σ)
    (Rel : World σ → World σ → Prop) (refl : ∀ w, Rel w w)
    (trans : ∀ {u v w}, Rel u v → Rel v w → Rel u w)
    (step : ∀ e w, P e → Rel w (e.perform env w).2) (w : World σ) :
    Q (p.run env w).1 ∧ Rel w (p.run env w).2 := by
  induction hp generalizing w with
  | done ha => exact ⟨ha, refl w⟩
  | perform he _ ih =>
    obtain ⟨hresult, hrel⟩ := ih (Effect.perform env w _).1 (Effect.perform env w _).2
    exact ⟨hresult, trans (step _ w he) hrel⟩

theorem Ensures.result {p : Program α} (hp : p.Ensures P Q) (env : Surroundings σ)
    (w : World σ) : Q (p.run env w).1 :=
  (hp.run env (fun _ _ => True) (fun _ => trivial) (fun _ _ => trivial)
    (fun _ _ _ => trivial) w).1

@[simp] theorem run_map (f : α → β) (p : Program α) (env : Surroundings σ) (w : World σ) :
    (f <$> p).run env w = (f (p.run env w).1, (p.run env w).2) := by
  rw [← bind_pure_comp, run_bind]
  rfl

end Program

namespace Attempt

theorem run_effect_bind (e : Effect) (f : e.Answer → Attempt ε α) :
    (effect e >>= f).run = .perform e fun answer => (f answer).run := rfl

theorem run_lift (p : Program α) (env : Surroundings σ) (w : World σ) :
    (ExceptT.lift p : Attempt ε α).run.run env w = (.ok (p.run env w).1, (p.run env w).2) :=
  Program.run_map _ p env w

theorem run_bind_of_ok {a : Attempt ε α} {f : α → Attempt ε β} {x : α} {env : Surroundings σ}
    {w w' : World σ} (h : a.run.run env w = (.ok x, w')) :
    (a >>= f).run.run env w = (f x).run.run env w' := by
  rw [ExceptT.run_bind, Program.run_bind, h]

theorem run_ofExcept_bind (f : ε → ε') (r : Except ε α) (k : α → Attempt ε' β) :
    (ofExcept f r >>= k).run =
      match r with
      | .error e => .done (.error (f e))
      | .ok a => (k a).run := by
  cases r <;> rfl

/-- Every effect is one of `P`, and what a success gives is one of `Q`. -/
def Ensures (P : Effect → Prop) (Q : α → Prop) (a : Attempt ε α) : Prop :=
  Program.Ensures P (fun r => ∀ x, r = .ok x → Q x) a.run

theorem Ensures.pure {x : α} (h : Q x) : Ensures P Q (pure x : Attempt ε α) :=
  .done fun _ hx => Except.ok.inj hx ▸ h

theorem Ensures.throw (e : ε) : Ensures P Q (throw e : Attempt ε α) :=
  .done fun _ hx => nomatch hx

theorem Ensures.effect {e : Effect} (h : P e) :
    Ensures P (fun _ => True) (effect e : Attempt ε e.Answer) :=
  (Program.Ensures.effect h).map fun _ _ _ _ => trivial

theorem Ensures.lift {p : Program α} (h : p.Ensures P Q) :
    Ensures P Q (ExceptT.lift p : Attempt ε α) :=
  h.map fun _ ha _ hx => Except.ok.inj hx ▸ ha

theorem Ensures.ofExcept {f : ε → ε'} {r : Except ε α} (h : ∀ x, r = .ok x → Q x) :
    Ensures P Q (ofExcept f r) := by
  cases r with
  | error e => exact .done fun _ hx => nomatch hx
  | ok x => exact .done fun _ hx => Except.ok.inj hx ▸ h x rfl

theorem Ensures.mapError {f : ε → ε'} {a : Attempt ε α} (h : Ensures P Q a) :
    Ensures P Q (a.mapError f) := by
  refine Program.Ensures.map h ?_
  intro r hr x hx
  cases r with
  | error e => cases hx
  | ok y => exact hr x (Except.ok.inj hx ▸ rfl)

theorem Ensures.bind {a : Attempt ε α} {f : α → Attempt ε β} (ha : Ensures P Q a)
    (hf : ∀ x, Q x → Ensures P R (f x)) : Ensures P R (a >>= f) := by
  refine Program.Ensures.bind ha ?_
  intro r hr
  cases r with
  | error e => exact .done fun _ hx => nomatch hx
  | ok x => exact hf x (hr x rfl)

theorem Ensures.ofExcept_bind {f : ε → ε'} {r : Except ε α} {k : α → Attempt ε' β}
    (hk : ∀ x, Ensures P R (k x)) : Ensures P R (Attempt.ofExcept f r >>= k) :=
  (Ensures.ofExcept fun _ _ => trivial).bind fun x (_ : True) => hk x

theorem Ensures.throw_bind (e : ε) (k : α → Attempt ε β) :
    Ensures P R (MonadExcept.throw e >>= k) :=
  .done fun _ hx => nomatch hx

end Attempt

namespace Effect

def KeepsTasks : Effect → Prop
  | .insertTask _ | .updateTask _ => False
  | _ => True

theorem KeepsTasks.perform_tasks {e : Effect} (h : e.KeepsTasks) (env : Surroundings σ)
    (w : World σ) : (e.perform env w).2.tasks = w.tasks := by
  cases e with
  | insertTask t => exact h.elim
  | updateTask t => exact h.elim
  | bucket op =>
    simp only [perform]
    split <;> rfl
  | _ => rfl

/-- Any other effect inserts a task or updates one. -/
theorem keepsTasks_or (e : Effect) :
    e.KeepsTasks ∨ (∃ t, e = .insertTask t) ∨ ∃ t, e = .updateTask t := by
  cases e with
  | insertTask t => exact .inr (.inl ⟨t, rfl⟩)
  | updateTask t => exact .inr (.inr ⟨t, rfl⟩)
  | _ => exact .inl trivial

theorem perform_updateTask {t u : Task} {w : World σ} (env : Surroundings σ)
    (h : w.tasks.get? t.channelId t.id = some u) :
    Effect.perform env w (.updateTask t) = (.ok (), { w with tasks := w.tasks.replace t }) := by
  simp only [perform, World.store, TaskStore.update_of_get? h]

end Effect

theorem Program.Ensures.run_tasks {p : Program α} (hp : p.Ensures Effect.KeepsTasks Q)
    (env : Surroundings σ) (w : World σ) : (p.run env w).2.tasks = w.tasks :=
  (hp.run env (fun u v => v.tasks = u.tasks) (fun _ => rfl)
    (fun huv hvw => hvw.trans huv) (fun _ w he => he.perform_tasks env w) w).2

end VideoGateway

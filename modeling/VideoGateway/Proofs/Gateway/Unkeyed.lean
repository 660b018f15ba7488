import VideoGateway.Proofs.Gateway.Session
import VideoGateway.Proofs.Gateway.Effects

/-!
# Programs without keys

What remains of a program when its calls show no keys. Programs of which the same
remains cannot be told apart where nothing depends on keys: they give the same results
and leave the same world, up to the keys in the calls.
-/
namespace VideoGateway

variable {σ α β ε ε' : Type}

namespace Http.Call

/-- The call without the header field that shows a key. -/
def withoutKey (c : Call) : Call :=
  { c with headers := c.headers.remove "authorization" }

end Http.Call

def Event.withoutKey : Event → Event
  | .called c => .called c.withoutKey
  | .waited ms => .waited ms

/-- The world without the keys in the calls so far. -/
def World.withoutKeys (w : World σ) : World σ :=
  { w with events := w.events.map Event.withoutKey }

/-- How calls end does not depend on the keys that they show. -/
def Surroundings.IgnoresKeys (env : Surroundings σ) : Prop :=
  ∀ c outside, env.reply c outside = env.reply c.withoutKey outside

namespace Program

def withoutKeys : Program α → Program α
  | .done a => .done a
  | .perform (.call c) next => .perform (.call c.withoutKey) fun reply => (next reply).withoutKeys
  | .perform e next => .perform e fun answer => (next answer).withoutKeys

theorem withoutKeys_bind (p : Program α) (f : α → Program β) :
    (p >>= f).withoutKeys = p.withoutKeys >>= fun a => (f a).withoutKeys := by
  induction p with
  | done a => rfl
  | perform e next ih =>
    cases e with
    | call c => simp only [perform_bind, withoutKeys, ih]
    | _ => simp only [perform_bind, withoutKeys, ih]

theorem withoutKeys_map (f : α → β) (p : Program α) :
    (f <$> p).withoutKeys = f <$> p.withoutKeys := by
  rw [← bind_pure_comp, withoutKeys_bind, ← bind_pure_comp]
  rfl

/-- A program and what remains of it without keys take the same step, where nothing
depends on keys. -/
theorem withoutKeys_perform {env : Surroundings σ} (henv : env.IgnoresKeys) (e : Effect)
    (next : e.Answer → Program α) (w : World σ) :
    ∃ e' next', (Program.perform e next).withoutKeys = .perform e' next' ∧
      next' (e'.perform env w.withoutKeys).1 = (next (e.perform env w).1).withoutKeys ∧
      (e'.perform env w.withoutKeys).2 = (e.perform env w).2.withoutKeys := by
  have hsame {e : Effect} {next : e.Answer → Program α}
      (h : e.perform env w.withoutKeys =
        ((e.perform env w).1, (e.perform env w).2.withoutKeys)) :
      (next (e.perform env w.withoutKeys).1).withoutKeys =
          (next (e.perform env w).1).withoutKeys ∧
        (e.perform env w.withoutKeys).2 = (e.perform env w).2.withoutKeys := by
    rw [h]
    exact ⟨rfl, rfl⟩
  cases e with
  | call c =>
    refine ⟨.call c.withoutKey, fun reply => (next reply).withoutKeys, rfl, ?_⟩
    simp [Effect.perform, World.withoutKeys, Event.withoutKey, ← henv c w.outside]
  | wait ms =>
    refine ⟨_, _, rfl, hsame ?_⟩
    simp [Effect.perform, World.withoutKeys, Event.withoutKey]
  | insertTask t =>
    refine ⟨_, _, rfl, hsame ?_⟩
    simp only [Effect.perform, World.withoutKeys]
    cases w.tasks.insert t <;> rfl
  | updateTask t =>
    refine ⟨_, _, rfl, hsame ?_⟩
    simp only [Effect.perform, World.withoutKeys]
    cases w.tasks.update t <;> rfl
  | bucket op =>
    refine ⟨_, _, rfl, hsame ?_⟩
    simp only [Effect.perform, World.withoutKeys]
    split <;> rfl
  | _ => exact ⟨_, _, rfl, hsame rfl⟩

/-- The same remains of two programs without keys. -/
def Alike (p q : Program α) : Prop :=
  p.withoutKeys = q.withoutKeys

variable {p q : Program α}

theorem Alike.refl (p : Program α) : p.Alike p := rfl

theorem Alike.symm (h : p.Alike q) : q.Alike p := Eq.symm h

theorem Alike.trans {r : Program α} (h : p.Alike q) (h' : q.Alike r) : p.Alike r := Eq.trans h h'

theorem Alike.bind {f f' : α → Program β} (h : p.Alike q) (hf : ∀ a, (f a).Alike (f' a)) :
    (p >>= f).Alike (q >>= f') := by
  unfold Alike
  rw [withoutKeys_bind, withoutKeys_bind, show p.withoutKeys = q.withoutKeys from h,
    show (fun a => (f a).withoutKeys) = fun a => (f' a).withoutKeys from funext hf]

theorem Alike.map (f : α → β) (h : p.Alike q) : (f <$> p).Alike (f <$> q) := by
  unfold Alike
  rw [withoutKeys_map, withoutKeys_map, show p.withoutKeys = q.withoutKeys from h]

theorem alike_call {c c' : Http.Call} (h : c.withoutKey = c'.withoutKey) :
    (effect (.call c)).Alike (effect (.call c')) := by
  show Program.perform (.call c.withoutKey) _ = Program.perform (.call c'.withoutKey) _
  rw [h]

end Program

/-- The same remains of two attempts without keys. -/
abbrev Attempt.Alike (a b : Attempt ε α) : Prop :=
  Program.Alike a.run b.run

namespace Attempt

variable {a b : Attempt ε α}

theorem Alike.bind {f f' : α → Attempt ε β} (h : a.Alike b) (hf : ∀ x, (f x).Alike (f' x)) :
    (a >>= f).Alike (b >>= f') := by
  refine Program.Alike.bind h fun r => ?_
  cases r with
  | error e => exact .refl _
  | ok x => exact hf x

theorem Alike.ofExcept_bind {f f' : α → Attempt ε' β} (m : ε → ε') (r : Except ε α)
    (hf : ∀ x, r = .ok x → (f x).Alike (f' x)) :
    (ofExcept m r >>= f).Alike (ofExcept m r >>= f') := by
  cases r with
  | error e => exact .refl _
  | ok x => exact hf x rfl

theorem Alike.ofExcept_bind_ok {f f' : α → Attempt ε' β} (m : ε → ε') {r r' : Except ε α}
    {x x' : α} (hr : r = .ok x) (hr' : r' = .ok x') (hf : (f x).Alike (f' x')) :
    (ofExcept m r >>= f).Alike (ofExcept m r' >>= f') := by
  rw [hr, hr']
  exact hf

theorem Alike.mapError {f : ε → ε'} (h : a.Alike b) : (a.mapError f).Alike (b.mapError f) :=
  Program.Alike.map _ h

theorem Alike.lift {p q : Program α} (h : p.Alike q) :
    Alike (ExceptT.lift p : Attempt ε α) (ExceptT.lift q) :=
  Program.Alike.map _ h

end Attempt

namespace Session

def withoutKeys (s : Session σ) : Session σ :=
  ⟨s.programs.map Program.withoutKeys, s.world.withoutKeys⟩

variable {g h : Gateway} {env : Surroundings σ}

theorem act_withoutKeys (henv : env.IgnoresKeys) (s : Session σ) (i : Nat) :
    (s.turn g env (.act i)).withoutKeys = s.withoutKeys.turn g env (.act i) := by
  simp only [turn, withoutKeys, List.getElem?_map]
  cases hget : s.programs[i]? with
  | none => rfl
  | some p =>
    cases p with
    | done a => rfl
    | perform e next =>
      obtain ⟨e', next', hremains, hnext, hworld⟩ :=
        Program.withoutKeys_perform henv e next s.world
      simp only [Option.map_some, hremains, hnext, hworld, List.map_set]

/-- Gateways whose programs are alike cannot be told apart by a history. -/
theorem after_withoutKeys (henv : env.IgnoresKeys)
    (hjobs : ∀ job : Gateway.Job, (job.program g).Alike (job.program h)) {s s' : Session σ}
    (hs : s.withoutKeys = s'.withoutKeys) (history : List Turn) :
    (s.after g env history).withoutKeys = (s'.after h env history).withoutKeys := by
  induction history generalizing s s' with
  | nil => exact hs
  | cons step history ih =>
    rw [after_cons, after_cons]
    apply ih
    cases step with
    | start job =>
      obtain ⟨hprograms, hworld⟩ := Session.mk.inj hs
      simp only [turn, withoutKeys, List.map_append, hprograms, hworld, List.map_cons, List.map_nil]
      rw [show (job.program g).withoutKeys = (job.program h).withoutKeys from hjobs job]
    | act i =>
      rw [act_withoutKeys henv, act_withoutKeys henv, hs]
      rfl

theorem result?_withoutKeys {α : Type} (p : Program α) : p.withoutKeys.result? = p.result? := by
  cases p with
  | done a => rfl
  | perform e next => cases e <;> rfl

theorem answers_withoutKeys (s : Session σ) : s.withoutKeys.answers = s.answers := by
  simp only [answers, withoutKeys, List.map_map]
  exact List.map_congr_left fun p _ => result?_withoutKeys p

end Session

end VideoGateway

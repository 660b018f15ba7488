import VideoGateway.Gateway.Program

/-!
# Running programs

The world holds what programs read and change, and the calls and waits so far.
How calls end, and which requests the bucket refuses, is up to the surroundings,
which have a state of their own.
-/
namespace VideoGateway

/-- What can be seen from outside: a call, or the wait before the next one. -/
inductive Event where
  | called (c : Http.Call)
  | waited (milliseconds : Nat)

def Event.call? : Event → Option Http.Call
  | .called c => some c
  | .waited _ => none

/-- What programs read and change. -/
structure World (σ : Type) where
  tasks : TaskStore
  rules : PriceRules
  bucket : Bucket
  /-- The events so far. -/
  events : List Event
  /-- The state of the surroundings. -/
  outside : σ

/-- The behaviour of vendors and of the bucket. -/
structure Surroundings (σ : Type) where
  reply : Http.Call → σ → Http.Reply × σ
  refuses : Bucket.Operation → σ → Bool × σ

namespace World

def fresh (rules : PriceRules) (outside : σ) : World σ :=
  ⟨.empty, rules, [], [], outside⟩

def calls (w : World σ) : List Http.Call :=
  w.events.filterMap Event.call?

/-- Takes a new state of the store, if there is one. -/
def store (w : World σ) : Except StoreError TaskStore → Except StoreError Unit × World σ
  | .ok tasks => (.ok (), { w with tasks := tasks })
  | .error e => (.error e, w)

end World

def Effect.perform (env : Surroundings σ) (w : World σ) : (e : Effect) → e.Answer × World σ
  | .call c =>
    let (reply, outside) := env.reply c w.outside
    (reply, { w with events := w.events ++ [.called c], outside := outside })
  | .wait ms => ((), { w with events := w.events ++ [.waited ms] })
  | .getTask channelId taskId => (w.tasks.get? channelId taskId, w)
  | .findTask taskId => (w.tasks.find? taskId, w)
  | .insertTask t => w.store (w.tasks.insert t)
  | .updateTask t => w.store (w.tasks.update t)
  | .unfinishedTasks => (w.tasks.unfinished, w)
  | .priceRules => (w.rules, w)
  | .setPriceRules rules => ((), { w with rules := rules })
  | .bucket op =>
    match env.refuses op w.outside with
    | (true, outside) => (.error .refused, { w with outside := outside })
    | (false, outside) =>
      let (result, objects) := w.bucket.perform op
      (result, { w with bucket := objects, outside := outside })

namespace Program

def run (env : Surroundings σ) : Program α → World σ → α × World σ
  | .done a, w => (a, w)
  | .perform e next, w =>
    let (answer, w) := e.perform env w
    run env (next answer) w

@[simp] theorem run_done (env : Surroundings σ) (a : α) (w : World σ) :
    (Program.done a).run env w = (a, w) := rfl

@[simp] theorem run_perform (env : Surroundings σ) (e : Effect) (next : e.Answer → Program α)
    (w : World σ) :
    (Program.perform e next).run env w =
      (next (e.perform env w).1).run env (e.perform env w).2 := rfl

theorem run_bind (env : Surroundings σ) (p : Program α) (f : α → Program β) (w : World σ) :
    (p >>= f).run env w = (f (p.run env w).1).run env (p.run env w).2 := by
  induction p generalizing w with
  | done a => rfl
  | perform e next ih => simp [ih]

end Program

end VideoGateway

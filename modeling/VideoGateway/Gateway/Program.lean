import VideoGateway.Http.Message
import VideoGateway.Price.Rules
import VideoGateway.Storage.Bucket
import VideoGateway.Task.Store

/-!
# Programs with effects

What the gateway does is a tree: a result, or an effect and what follows each
answer to it. Effects are the calls to vendors, the waits between attempts, and
the accesses to the task store, the price rules and the bucket; each happens at
once, and others may happen in between. Programs compose as a lawful monad.
-/
namespace VideoGateway

/-- Something that a program asks of its surroundings. -/
inductive Effect where
  | call (c : Http.Call)
  /-- Waits some milliseconds. -/
  | wait (milliseconds : Nat)
  | getTask (channelId : Nat) (taskId : String)
  | findTask (taskId : String)
  | insertTask (t : Task)
  | updateTask (t : Task)
  | unfinishedTasks
  | priceRules
  | setPriceRules (rules : PriceRules)
  | bucket (op : Bucket.Operation)

/-- What an effect gives. -/
abbrev Effect.Answer : Effect → Type
  | .call _ => Http.Reply
  | .wait _ => Unit
  | .getTask _ _ => Option Task
  | .findTask _ => Option Task
  | .insertTask _ => Except StoreError Unit
  | .updateTask _ => Except StoreError Unit
  | .unfinishedTasks => List Task
  | .priceRules => PriceRules
  | .setPriceRules _ => Unit
  | .bucket op => Except BucketFault op.Result

/-- A result, or an effect and what follows each answer. -/
inductive Program (α : Type) where
  | done (a : α)
  | perform (e : Effect) (next : e.Answer → Program α)

namespace Program

def effect (e : Effect) : Program e.Answer :=
  .perform e .done

def bind : Program α → (α → Program β) → Program β
  | .done a, f => f a
  | .perform e next, f => .perform e fun answer => bind (next answer) f

instance : Monad Program where
  pure := .done
  bind := bind

@[simp] theorem pure_eq (a : α) : (pure a : Program α) = .done a := rfl

@[simp] theorem done_bind (a : α) (f : α → Program β) : Program.done a >>= f = f a := rfl

@[simp] theorem perform_bind (e : Effect) (next : e.Answer → Program α) (f : α → Program β) :
    Program.perform e next >>= f = .perform e fun answer => next answer >>= f := rfl

theorem bind_done (p : Program α) : p >>= Program.done = p := by
  induction p with
  | done a => rfl
  | perform e next ih => simp [ih]

theorem bind_assoc (p : Program α) (f : α → Program β) (g : β → Program γ) :
    p >>= f >>= g = p >>= fun a => f a >>= g := by
  induction p with
  | done a => rfl
  | perform e next ih => simp [ih]

instance : LawfulMonad Program :=
  LawfulMonad.mk' Program (fun p => bind_done p) (fun _ _ => rfl) bind_assoc

end Program

/-- A program that may fail. -/
abbrev Attempt (ε α : Type) := ExceptT ε Program α

namespace Attempt

def ofExcept (f : ε → ε') (r : Except ε α) : Attempt ε' α :=
  ExceptT.mk (pure (r.mapError f))

def effect (e : Effect) : Attempt ε e.Answer :=
  ExceptT.lift (Program.effect e)

/-- The attempt with its failures put in other terms. -/
def mapError (f : ε → ε') (a : Attempt ε α) : Attempt ε' α :=
  ExceptT.mk ((·.mapError f) <$> a.run)

end Attempt

end VideoGateway

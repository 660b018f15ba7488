import VideoGateway.Binary64.Basic

/-!
# JSON values

Numbers are integers or binary64 values and keep that difference. The members
of an object stand in the order of their keys, each key once; setting a member
replaces an earlier one of the same key.
-/
namespace VideoGateway

/-- A JSON number: an integer, or a binary64 value. -/
inductive Json.Number where
  | int (n : Int)
  | real (x : Binary64)
deriving DecidableEq

inductive Json where
  | null
  | bool (b : Bool)
  | num (n : Json.Number)
  | str (s : String)
  | arr (items : List Json)
  | obj (members : List (String × Json))
deriving Inhabited

namespace Json

/-- The members of an object, in the order of their keys. -/
abbrev Members := List (String × Json)

namespace Number

def toBinary64 : Number → Binary64
  | .int n => .ofInt n
  | .real x => x

end Number

namespace Members

def get? (ms : Members) (key : String) : Option Json :=
  ms.lookup key

def insert (key : String) (value : Json) : Members → Members
  | [] => [(key, value)]
  | (k, v) :: ms =>
    if key = k then (key, value) :: ms
    else if key < k then (key, value) :: (k, v) :: ms
    else (k, v) :: insert key value ms

/-- The members given by a list of pairs; of equal keys the last one counts. -/
def ofList (pairs : List (String × Json)) : Members :=
  pairs.foldl (fun ms (k, v) => insert k v ms) []

theorem get?_insert_self (key : String) (value : Json) (ms : Members) :
    (insert key value ms).get? key = some value := by
  induction ms with
  | nil => simp [insert, get?]
  | cons m ms ih =>
    obtain ⟨k, v⟩ := m
    unfold insert
    split
    · simp [get?]
    · split
      · simp [get?]
      · rename_i h _
        have hb : (key == k) = false := by simpa using h
        simpa [get?, List.lookup_cons, hb] using ih

theorem get?_insert_of_ne {key other : String} (h : other ≠ key) (value : Json) (ms : Members) :
    (insert key value ms).get? other = ms.get? other := by
  have hb : (other == key) = false := by simpa using h
  induction ms with
  | nil => simp [insert, get?, List.lookup_cons, hb]
  | cons m ms ih =>
    obtain ⟨k, v⟩ := m
    unfold insert
    split
    · rename_i e
      subst e
      simp [get?, List.lookup_cons, hb]
    · split
      · simp [get?, List.lookup_cons, hb]
      · simp only [get?, List.lookup_cons] at ih ⊢
        cases other == k <;> simp [ih]

end Members

def object (pairs : List (String × Json)) : Json :=
  .obj (Members.ofList pairs)

def int (n : Int) : Json := .num (.int n)

def nat (n : Nat) : Json := .num (.int n)

/-- The binary64 value as a number; `null` when it is not finite. -/
def real (x : Binary64) : Json :=
  if x.isFinite then .num (.real x) else .null

/-- The value of an option, or `null`. -/
def option (f : α → Json) : Option α → Json
  | none => .null
  | some a => f a

def member? : Json → String → Option Json
  | .obj ms, key => Members.get? ms key
  | _, _ => none

def str? : Json → Option String
  | .str s => some s
  | _ => none

def bool? : Json → Option Bool
  | .bool b => some b
  | _ => none

def number? : Json → Option Number
  | .num n => some n
  | _ => none

def isNull : Json → Bool
  | .null => true
  | _ => false

end Json

end VideoGateway

import VideoGateway.Json.Reader
import VideoGateway.Word

/-!
# Reading records from documents

A reading turns a document into a value of a domain type. A record is given as
an object, of which unknown members are passed over and known ones may occur
once, or as a list of its fields in order. Faults are reported in the order of
the text: a record is refused for the first field at fault, and for an end that
is missing only when all before it is sound.
-/
namespace VideoGateway.Document

abbrev Reading (α : Type) := Document → Except Fault α

/-- The fault of a document that has not the expected shape: parts that are not
there or cannot be read are faults of the text. -/
def otherwise : Document → Fault
  | .torn => .malformed
  | .number none => .malformed
  | .string none => .malformed
  | _ => .mismatch

namespace Reading

def string : Reading String
  | .string (some s) => .ok s
  | d => .error (otherwise d)

def bool : Reading Bool
  | .bool b => .ok b
  | d => .error (otherwise d)

/-- An integer between two bounds. A number with a fraction or an exponent is
none, whatever its value. -/
def integer (least greatest : Int) : Reading Int
  | .number (some (.int n)) => if least ≤ n ∧ n ≤ greatest then .ok n else .error .mismatch
  | d => .error (otherwise d)

def natural (greatest : Nat) : Reading Nat
  | .number (some (.int n)) => if 0 ≤ n ∧ n ≤ greatest then .ok n.toNat else .error .mismatch
  | d => .error (otherwise d)

def signed64 : Reading Int := integer Word.leastSigned64 Word.greatestSigned64

/-- Natural numbers of 8, 32 and 64 bits. -/
def word8 : Reading Nat := natural Word.greatest8
def word32 : Reading Nat := natural Word.greatest32
def word64 : Reading Nat := natural Word.greatest64

def real : Reading Binary64
  | .number (some n) => .ok n.toBinary64
  | d => .error (otherwise d)

def option (read : Reading α) : Reading (Option α)
  | .null => .ok none
  | d => (read d).map some

def items (read : Reading α) (closed : Bool) : List Document → Except Fault (List α)
  | [] => if closed then .ok [] else .error .malformed
  | d :: ds => do
    let a ← read d
    let as ← items read closed ds
    pure (a :: as)

def list (read : Reading α) : Reading (List α)
  | .array ds closed => items read closed ds
  | d => .error (otherwise d)

/-- The members of an object with values of any kind, nested up to `room`. -/
def members (room : Nat) : Reading Json.Members
  | .object ms closed =>
    match toJson? room (.object ms closed) with
    | some (.obj ms) => .ok ms
    | _ => .error .malformed
  | d => .error (otherwise d)

end Reading

/-- A field of a record: its names, of which the first one is its own, how its
value is read, and the value it has when it is missing. -/
structure Slot (α : Type) where
  names : List String
  read : Reading α
  default? : Option α

/-- What the traversal of a record has to know of a field. -/
structure Field where
  names : List String
  needed : Bool
  check : Document → Except Fault Unit

namespace Slot

def required (name : String) (read : Reading α) : Slot α :=
  ⟨[name], read, none⟩

def defaulted (name : String) (read : Reading α) (value : α) : Slot α :=
  ⟨[name], read, some value⟩

/-- A field that may be missing or `null`. -/
def optional (names : List String) (read : Reading α) : Slot (Option α) :=
  ⟨names, Reading.option read, some none⟩

def field (slot : Slot α) : Field :=
  ⟨slot.names, slot.default?.isNone, fun d => (slot.read d).map fun _ => ()⟩

end Slot

namespace Field

def name (f : Field) : String :=
  f.names.headD ""

end Field

/-- The documents of the fields that a record gives, by field name. -/
abbrev Record := List (String × Document)

namespace Record

/-- Adds the members of an object to the fields found so far. -/
def addMembers (fields : List Field) (found : Record) :
    List (Option String × Document) → Except Fault Record
  | [] => .ok found
  | (key, d) :: ms =>
    match key with
    | none => .error .malformed
    | some key =>
      match fields.find? (·.names.contains key) with
      | none => if d.intact then addMembers fields found ms else .error .malformed
      | some f =>
        if (found.lookup f.name).isSome then .error .mismatch
        else
          match f.check d with
          | .error fault => .error fault
          | .ok () => addMembers fields ((f.name, d) :: found) ms

/-- Adds the items of a list to the fields found so far, in order. -/
def addItems (found : Record) (closed : Bool) :
    List Field → List Document → Except Fault Record
  | [], [] => if closed then .ok found else .error .malformed
  | [], _ :: _ => .error .malformed
  | f :: fs, [] =>
    if !closed then .error .malformed
    else if f.needed then .error .mismatch
    else addItems found closed fs []
  | f :: fs, d :: ds =>
    match f.check d with
    | .error fault => .error fault
    | .ok () => addItems ((f.name, d) :: found) closed fs ds

def ofDocument (fields : List Field) : Document → Except Fault Record
  | .object ms closed =>
    match addMembers fields [] ms with
    | .error fault => .error fault
    | .ok found =>
      if !closed then .error .malformed
      else if fields.any fun f => f.needed && (found.lookup f.name).isNone then .error .mismatch
      else .ok found
  | .array ds closed => addItems [] closed fields ds
  | d => .error (otherwise d)

def get (r : Record) (slot : Slot α) : Except Fault α :=
  match r.lookup (slot.names.headD "") with
  | some d => slot.read d
  | none =>
    match slot.default? with
    | some a => .ok a
    | none => .error .mismatch

end Record

/-- Reads a whole text: nothing but blanks may follow the value. -/
def readText (read : Reading α) (text : Bytes) : Except Fault α :=
  let (d, alone) := ofText text
  match read d with
  | .error fault => .error fault
  | .ok a => if alone then .ok a else .error .malformed

def readJson (read : Reading α) (v : Json) : Except Fault α :=
  read (ofJson v)

end VideoGateway.Document

import VideoGateway.Json.Basic

/-!
# JSON documents

A document is the outline of a JSON text, before anything about its content is
decided: members stand in their written order, repeated keys included; a number
too large for binary64 and a string that is not a text are kept as such, since
they matter only where they are read; and the place where the text stops being
JSON is marked. A value embeds into the documents, so one set of readings serves
for texts and for values.
-/
namespace VideoGateway

/-- The outline of a JSON text. Containers that the text does not close are
marked, and `torn` stands for a value that is not there. -/
inductive Document where
  | null
  | bool (b : Bool)
  | number (value : Option Json.Number)
  | string (value : Option String)
  | array (items : List Document) (closed : Bool)
  | object (members : List (Option String × Document)) (closed : Bool)
  | torn
deriving Inhabited

namespace Document

/-- Why a document does not give the expected value: its text is at fault, or
the text is JSON and has another shape. -/
inductive Fault where
  | malformed
  | mismatch
deriving DecidableEq, Repr

def Fault.text : Fault → String
  | .malformed => "not JSON"
  | .mismatch => "unexpected JSON"

/-- The number of containers that may enclose each other in a value. -/
def depthLimit : Nat := 127

mutual

def ofJson : Json → Document
  | .null => .null
  | .bool b => .bool b
  | .num n => .number (some n)
  | .str s => .string (some s)
  | .arr items => .array (ofItems items) true
  | .obj members => .object (ofMembers members) true

def ofItems : List Json → List Document
  | [] => []
  | v :: vs => ofJson v :: ofItems vs

def ofMembers : List (String × Json) → List (Option String × Document)
  | [] => []
  | (k, v) :: ms => (some k, ofJson v) :: ofMembers ms

end

mutual

/-- Whether the text of a document is JSON to its end. -/
def intact : Document → Bool
  | .torn => false
  | .array items closed => itemsIntact items && closed
  | .object members closed => membersIntact members && closed
  | _ => true

def itemsIntact : List Document → Bool
  | [] => true
  | d :: ds => intact d && itemsIntact ds

def membersIntact : List (Option String × Document) → Bool
  | [] => true
  | (_, d) :: ms => intact d && membersIntact ms

end

mutual

/-- The value of a document, of which every part must be readable. At most
`room` containers may enclose each other. -/
def toJson? (room : Nat) : Document → Option Json
  | .null => some .null
  | .bool b => some (.bool b)
  | .number n => n.map .num
  | .string s => s.map .str
  | .array items closed =>
    match room with
    | 0 => none
    | room + 1 => if closed then (itemsToJson? room items).map .arr else none
  | .object members closed =>
    match room with
    | 0 => none
    | room + 1 =>
      if closed then (membersToJson? room members).map (Json.obj ∘ Json.Members.ofList) else none
  | .torn => none

def itemsToJson? (room : Nat) : List Document → Option (List Json)
  | [] => some []
  | d :: ds =>
    match toJson? room d, itemsToJson? room ds with
    | some v, some vs => some (v :: vs)
    | _, _ => none

def membersToJson? (room : Nat) :
    List (Option String × Document) → Option (List (String × Json))
  | [] => some []
  | (key, d) :: ms =>
    match key, toJson? room d, membersToJson? room ms with
    | some k, some v, some pairs => some ((k, v) :: pairs)
    | _, _, _ => none

end

end Document

end VideoGateway

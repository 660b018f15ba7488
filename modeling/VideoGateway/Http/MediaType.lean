import VideoGateway.Text.Ascii
import VideoGateway.Text.Cut

/-!
# Media types

A media type is a type, a subtype and perhaps parameters. What follows the last
plus sign of the subtype is its suffix, unless nothing comes before the sign.
Parameters do not matter here, but they have to be well formed.
-/
namespace VideoGateway.Http

/-- A media type without its parameters, in small letters. -/
structure MediaType where
  type : String
  subtype : String
  suffix : Option String
deriving DecidableEq, Repr

namespace MediaType

/-- The characters of names and of values without quotes. -/
def isNameChar (c : Char) : Bool :=
  c.isAlphanum || "!#$%&*+-.^_|~\x27\x60".toList.contains c

def isQuotedChar (c : Char) : Bool :=
  0x20 ≤ c.toNat && c.toNat != 0x7F

/-- A place in a list of parameters. -/
inductive Place where
  /-- Before a name, after blanks if any. -/
  | start
  | name
  /-- After the equals sign. -/
  | value
  | plain
  /-- After the opening quote. The first character belongs to the value even if
  it is a quote. -/
  | opened
  | quoted
  /-- After the closing quote. -/
  | closed
deriving DecidableEq, Repr

/-- The place after a character, if it may stand at a place. -/
def Place.next? : Place → Char → Option Place
  | .start, c => if c = ' ' then some .start else if isNameChar c then some .name else none
  | .name, c => if c = '=' then some .value else if isNameChar c then some .name else none
  | .value, c => if c = '"' then some .opened else if isNameChar c then some .plain else none
  | .plain, c => if c = ';' then some .start else if isNameChar c then some .plain else none
  | .opened, c => if isQuotedChar c then some .quoted else none
  | .quoted, c => if c = '"' then some .closed else if isQuotedChar c then some .quoted else none
  | .closed, c => if c = ';' then some .start else if c = ' ' then some .closed else none

def Place.isEnd : Place → Bool
  | .start | .value | .plain | .closed => true
  | .name | .opened | .quoted => false

def areParameters (cs : List Char) : Bool :=
  (cs.foldlM Place.next? Place.start).any Place.isEnd

/-- The subtype and the suffix of a name. -/
def splitSuffix (name : String) : String × Option String :=
  match Text.splitLast? '+' name with
  | none => (name, none)
  | some (subtype, suffix) => if subtype.isEmpty then (name, none) else (subtype, some suffix)

def isName (cs : List Char) : Bool :=
  !cs.isEmpty && cs.all isNameChar

def ofText? (s : String) : Option MediaType :=
  match Text.cutAt? '/' (Text.lower s).toList with
  | none => none
  | some (type, rest) =>
    let name := rest.takeWhile (· != ';')
    let parameters := (rest.dropWhile (· != ';')).drop 1
    if isName type && isName name && areParameters parameters then
      let (subtype, suffix) := splitSuffix (String.ofList name)
      some ⟨String.ofList type, subtype, suffix⟩
    else none

def isJson (m : MediaType) : Bool :=
  m.type == "application" && (m.subtype == "json" || m.suffix == some "json")

end MediaType

end VideoGateway.Http

import VideoGateway.Text.Integer
import VideoGateway.Text.Percent

/-!
# Addresses on the web

An address in its parts, each part in the one spelling that stands for it, and
the text that the parts make.
-/
namespace VideoGateway

/-- An address that names a host. -/
structure Url where
  scheme : String
  user : String
  password : String
  host : String
  /-- Absent for the port that the scheme implies. -/
  port : Option Nat
  /-- The parts between the slashes. -/
  path : List String
  query : Option String
  fragment : Option String
deriving DecidableEq, Repr

namespace Url

/-- The octets that are written as triples in every part. -/
def isControl (b : UInt8) : Bool :=
  b < 0x20 || 0x7E < b

def isEscapedInFragment (b : UInt8) : Bool :=
  isControl b || [0x20, 0x22, 0x3C, 0x3E, 0x60].contains b

def isEscapedInQuery (b : UInt8) : Bool :=
  isControl b || [0x20, 0x22, 0x23, 0x27, 0x3C, 0x3E].contains b

def isEscapedInPath (b : UInt8) : Bool :=
  isEscapedInFragment b || [0x23, 0x3F, 0x7B, 0x7D].contains b

def isEscapedInUser (b : UInt8) : Bool :=
  isEscapedInPath b || [0x2F, 0x3A, 0x3B, 0x3D, 0x40, 0x5B, 0x5C, 0x5D, 0x5E, 0x7C].contains b

/-- The schemes whose addresses name a host, and the ports that they imply. -/
def impliedPorts : List (String × Nat) :=
  [("http", 80), ("https", 443), ("ws", 80), ("wss", 443), ("ftp", 21)]

def credentials (u : Url) : String :=
  if u.password.isEmpty then
    if u.user.isEmpty then "" else u.user ++ "@"
  else u.user ++ ":" ++ u.password ++ "@"

/-- The host, and the port unless the scheme implies it. -/
def origin (u : Url) : String :=
  match u.port with
  | none => u.host
  | some port => u.host ++ ":" ++ Text.natText port

/-- The text of an address up to its query. -/
def base (u : Url) : String :=
  u.scheme ++ "://" ++ u.credentials ++ u.origin ++ String.join (u.path.map ("/" ++ ·))

/-- The text of an address without its fragment, as it is sent. -/
def text (u : Url) : String :=
  match u.query with
  | none => u.base
  | some query => u.base ++ "?" ++ query

/-- A character in the form of a query pair: letters, digits and four marks stay,
a space is a plus sign, other octets are triples. -/
def pairChars (b : UInt8) : List Char :=
  let c := Char.ofNat b.toNat
  if b < 0x80 && (c.isAlphanum || ['*', '-', '.', '_'].contains c) then [c]
  else if c = ' ' then ['+']
  else Text.Percent.triple b

def pairText (s : String) : String :=
  String.ofList ((Text.Utf8.encode s).flatMap pairChars)

def addPair (u : Url) (name value : String) : Url :=
  let pair := pairText name ++ "=" ++ pairText value
  match u.query with
  | none => { u with query := some pair }
  | some query => { u with query := some (if query.isEmpty then pair else query ++ "&" ++ pair) }

/-- Adds names and values to the query. An empty query is none. -/
def addPairs (u : Url) (pairs : List (String × String)) : Url :=
  match pairs with
  | [] => u
  | _ :: _ => pairs.foldl (fun u (name, value) => u.addPair name value) u

end Url

end VideoGateway

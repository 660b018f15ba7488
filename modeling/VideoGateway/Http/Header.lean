import VideoGateway.Text.Ascii
import VideoGateway.Text.Utf8

/-!
# HTTP header fields

A header value is a sequence of octets. Names are kept in lower case, so they
compare without regard to case.
-/
namespace VideoGateway.Http

/-- Header fields in the order in which they were added. -/
abbrev Headers := List (String × Bytes)

namespace Headers

/-- The first value of a name. -/
def get? (hs : Headers) (name : String) : Option Bytes :=
  hs.lookup name

def set (hs : Headers) (name : String) (value : Bytes) : Headers :=
  hs.filter (·.1 != name) ++ [(name, value)]

def remove (hs : Headers) (name : String) : Headers :=
  hs.filter (·.1 != name)

end Headers

namespace HeaderValue

/-- The octets that a value may hold: all but control characters, of which the
tab is allowed. -/
def isAllowed (b : UInt8) : Bool :=
  (0x20 ≤ b && b != 0x7F) || b == 0x09

/-- The octets that the text of a value may hold: printable ASCII and the tab. -/
def isPrintable (b : UInt8) : Bool :=
  (0x20 ≤ b && b < 0x7F) || b == 0x09

def ofText? (s : String) : Option Bytes :=
  let bs := Text.Utf8.encode s
  if bs.all isAllowed then some bs else none

/-- The text of a value, if all of it is printable ASCII. -/
def toText? (v : Bytes) : Option String :=
  if v.all isPrintable then some (String.ofList (v.map fun b => Char.ofNat b.toNat)) else none

end HeaderValue

end VideoGateway.Http

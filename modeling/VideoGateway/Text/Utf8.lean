/-!
# UTF-8

Texts as bytes and bytes as texts. A byte sequence is read octet by octet; the
state is what the next octet may be. Every maximal piece that no encoded
character starts with counts as one fault, so the strict reading (no fault) and
the lenient one (a replacement character for each fault) share one scan.
-/
namespace VideoGateway

/-- A sequence of octets, such as a message body or a stored object. -/
abbrev Bytes := List UInt8

namespace Text.Utf8

def encode (s : String) : Bytes :=
  s.toList.flatMap String.utf8EncodeChar

/-- An unfinished character: the octets still owed, the bounds of the next one,
and the bits read so far. -/
structure Pending where
  owed : Nat
  low : UInt8
  high : UInt8
  bits : Nat
deriving DecidableEq

/-- A character, or `none` for a fault. -/
abbrev Unit? := Option Char

/-- What an octet between two characters starts: a whole character, a longer
one, or a fault. -/
def start (b : UInt8) : List Unit? × Option Pending :=
  if b < 0x80 then ([some (Char.ofNat b.toNat)], none)
  else if b < 0xC2 then ([none], none)
  else if b < 0xE0 then ([], some ⟨1, 0x80, 0xBF, b.toNat - 0xC0⟩)
  else if b = 0xE0 then ([], some ⟨2, 0xA0, 0xBF, 0⟩)
  else if b = 0xED then ([], some ⟨2, 0x80, 0x9F, 0x0D⟩)
  else if b < 0xF0 then ([], some ⟨2, 0x80, 0xBF, b.toNat - 0xE0⟩)
  else if b = 0xF0 then ([], some ⟨3, 0x90, 0xBF, 0⟩)
  else if b < 0xF4 then ([], some ⟨3, 0x80, 0xBF, b.toNat - 0xF0⟩)
  else if b = 0xF4 then ([], some ⟨3, 0x80, 0x8F, 4⟩)
  else ([none], none)

/-- One octet: the units it completes and what is pending after it. -/
def step : Option Pending → UInt8 → List Unit? × Option Pending
  | none, b => start b
  | some p, b =>
    if p.low ≤ b && b ≤ p.high then
      let bits := p.bits * 64 + (b.toNat - 0x80)
      if p.owed ≤ 1 then ([some (Char.ofNat bits)], none)
      else ([], some ⟨p.owed - 1, 0x80, 0xBF, bits⟩)
    else
      let (units, next) := start b
      (none :: units, next)

/-- The units read so far, last one first, and what is pending. -/
def feed : List Unit? × Option Pending → UInt8 → List Unit? × Option Pending
  | (done, pending), b =>
    let (units, next) := step pending b
    (units.reverse ++ done, next)

/-- The characters and faults of a byte sequence. An unfinished character at the
end is one fault. -/
def units (bs : Bytes) : List Unit? :=
  match bs.foldl feed ([], none) with
  | (done, none) => done.reverse
  | (done, some _) => (none :: done).reverse

def decode? (bs : Bytes) : Option String :=
  let us := units bs
  if us.all Option.isSome then some (String.ofList (us.filterMap id)) else none

/-- The text of a byte sequence, with U+FFFD in place of each fault. -/
def decodeLossy (bs : Bytes) : String :=
  String.ofList ((units bs).map (·.getD '\uFFFD'))

end Text.Utf8

end VideoGateway

import VideoGateway.Text.Utf8

/-!
# Percent encoding

Octets of a class are written as a percent sign and two hexadecimal digits, the
others as they are. Reading turns each such triple back into its octet and
keeps a percent sign that two hexadecimal digits do not follow.
-/
namespace VideoGateway.Text.Percent

/-- The capital hexadecimal digit of a number below sixteen. -/
def hexDigit (n : Nat) : Char :=
  if n < 10 then Char.ofNat (0x30 + n) else Char.ofNat (0x37 + n)

def hexValue? (b : UInt8) : Option UInt8 :=
  if 0x30 ≤ b && b ≤ 0x39 then some (b - 0x30)
  else if 0x41 ≤ b && b ≤ 0x46 then some (b - 0x37)
  else if 0x61 ≤ b && b ≤ 0x66 then some (b - 0x57)
  else none

def triple (b : UInt8) : List Char :=
  ['%', hexDigit (b.toNat / 16), hexDigit (b.toNat % 16)]

/-- Writes the octets of a class as triples. The class holds every octet that
is not an ASCII character. -/
def encodeBytes (escaped : UInt8 → Bool) (bs : Bytes) : List Char :=
  bs.flatMap fun b => if escaped b || 0x80 ≤ b then triple b else [Char.ofNat b.toNat]

/-- The text with the octets of a class written as triples. -/
def encode (escaped : UInt8 → Bool) (s : String) : String :=
  String.ofList (encodeBytes escaped (Utf8.encode s))

/-- Puts an octet for each triple. -/
def decodeBytes : Bytes → Bytes
  | 0x25 :: a :: b :: rest =>
    match hexValue? a, hexValue? b with
    | some x, some y => (x * 16 + y) :: decodeBytes rest
    | _, _ => 0x25 :: decodeBytes (a :: b :: rest)
  | b :: rest => b :: decodeBytes rest
  | [] => []

/-- The text with each triple decoded, when the result is UTF-8. -/
def decode? (s : String) : Option String :=
  Utf8.decode? (decodeBytes (Utf8.encode s))

end VideoGateway.Text.Percent

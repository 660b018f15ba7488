/-!
# ASCII letter case

Case folding over the ASCII range. Every other character is left alone, so a
folded text has the length of the given one.
-/
namespace VideoGateway.Text

/-- The small letter of an ASCII capital; any other character stays. -/
def lowerChar (c : Char) : Char :=
  if 0x41 ≤ c.toNat && c.toNat ≤ 0x5A then Char.ofNat (c.toNat + 32) else c

def lower (s : String) : String :=
  String.ofList (s.toList.map lowerChar)

/-- Equality up to the case of ASCII letters. -/
def equalFold (a b : String) : Bool :=
  a.toList.map lowerChar == b.toList.map lowerChar

end VideoGateway.Text

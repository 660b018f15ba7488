/-!
# Blank characters

The characters of the Unicode property `White_Space`, and the cut that removes
them from both ends of a text. A text is blank when nothing is left of it.
-/
namespace VideoGateway.Text

/-- Whether a character has the property. -/
def isBlank (c : Char) : Bool :=
  let n := c.toNat
  (0x09 ≤ n && n ≤ 0x0D) || n == 0x20 || n == 0x85 || n == 0xA0 || n == 0x1680 ||
    (0x2000 ≤ n && n ≤ 0x200A) || n == 0x2028 || n == 0x2029 || n == 0x202F ||
    n == 0x205F || n == 0x3000

/-- Drops the characters of a class from the end of a list. -/
def dropRight (p : Char → Bool) (cs : List Char) : List Char :=
  (cs.reverse.dropWhile p).reverse

def dropBoth (p : Char → Bool) (cs : List Char) : List Char :=
  dropRight p (cs.dropWhile p)

def trim (s : String) : String :=
  String.ofList (dropBoth isBlank s.toList)

def trimLeft (p : Char → Bool) (s : String) : String :=
  String.ofList (s.toList.dropWhile p)

def trimRight (p : Char → Bool) (s : String) : String :=
  String.ofList (dropRight p s.toList)

def trimBoth (p : Char → Bool) (s : String) : String :=
  String.ofList (dropBoth p s.toList)

def isBlankText (s : String) : Bool :=
  s.toList.all isBlank

/-- The trimmed text, when something is left of it. -/
def nonBlank? (s : String) : Option String :=
  if isBlankText s then none else some (trim s)

end VideoGateway.Text

import VideoGateway.Text.Ascii
import VideoGateway.Text.Blank
import VideoGateway.Text.Integer
import VideoGateway.Text.Percent

/-!
# Hosts of addresses

A host is a name, an address of four octets or, between brackets, an address of
eight words. Each is read into the one text that stands for it. Names outside
ASCII have no such text here.
-/
namespace VideoGateway.Url

def isForbiddenInName (c : Char) : Bool :=
  c.toNat ≤ 0x20 || 0x7F ≤ c.toNat || "#/:<>?@[\\]^|%".toList.contains c

def hexValue? (c : Char) : Option Nat :=
  if c.isDigit then some (c.toNat - 0x30)
  else if 'a' ≤ c && c ≤ 'f' then some (c.toNat - 0x57)
  else if 'A' ≤ c && c ≤ 'F' then some (c.toNat - 0x37)
  else none

def digitsValue? (base : Nat) (cs : List Char) : Option Nat :=
  cs.foldl (fun total c =>
    match total, hexValue? c with
    | some n, some d => if d < base then some (n * base + d) else none
    | _, _ => none) (some 0)

/-- The value of a part of an address of four octets: hexadecimal after `0x`,
octal after another zero, decimal otherwise. -/
def octetPart? : List Char → Option Nat
  | [] => none
  | '0' :: x :: cs =>
    if x = 'x' || x = 'X' then digitsValue? 16 cs else digitsValue? 8 (x :: cs)
  | cs => digitsValue? 10 cs

/-- The parts of a name between its dots, without an empty last one. -/
def nameParts (cs : List Char) : List (List Char) :=
  match (Text.splitAll '.' cs).reverse with
  | [] :: part :: parts => (part :: parts).reverse
  | parts => parts.reverse

/-- Whether a name has to be an address of four octets: its last part is a
number. -/
def endsInNumber (cs : List Char) : Bool :=
  match (nameParts cs).getLast? with
  | none => false
  | some part =>
    Text.isDigits part ||
      match part with
      | '0' :: x :: rest => (x = 'x' || x = 'X') && (digitsValue? 16 rest).isSome
      | _ => false

/-- The number that the parts of an address stand for: an octet each, and the
last part what is left. -/
def octets? : (left : Nat) → List Nat → Option Nat
  | _, [] => none
  | left, [last] => if last < 1 <<< (8 * left) then some last else none
  | left, n :: ns =>
    if n < 256 then (octets? (left - 1) ns).map fun rest => n <<< (8 * (left - 1)) + rest else none

/-- The four octets of a number, with dots between them. -/
def dotted (n : Nat) : List Char :=
  let octet (k : Nat) := (Text.natText (n >>> (8 * k) % 256)).toList
  octet 3 ++ '.' :: octet 2 ++ '.' :: octet 1 ++ '.' :: octet 0

def fourOctets? (cs : List Char) : Option (List Char) :=
  let parts := nameParts cs
  if parts.length ≤ 4 then
    match parts.mapM octetPart? with
    | some ns => (octets? 4 ns).map dotted
    | none => none
  else none

/-- A decimal octet without needless zeros. -/
def plainOctet? (cs : List Char) : Option Nat :=
  match digitsValue? 10 cs with
  | some n => if n < 256 && cs == (Text.natText n).toList then some n else none
  | none => none

/-- The words that one group of an address of eight words stands for. Only the
last group may be written as four octets. -/
def group? (isLast : Bool) (cs : List Char) : Option (List Nat) :=
  if cs.contains '.' then
    match isLast, (Text.splitAll '.' cs).mapM plainOctet? with
    | true, some [a, b, c, d] => some [a * 256 + b, c * 256 + d]
    | _, _ => none
  else if cs.isEmpty || 4 < cs.length then none
  else (digitsValue? 16 cs).map fun n => [n]

def groups? (atEnd : Bool) (cs : List Char) : Option (List Nat) :=
  if cs.isEmpty then some []
  else
    let parts := Text.splitAll ':' cs
    let read := parts.zipIdx.mapM fun (part, i) => group? (atEnd && i + 1 == parts.length) part
    read.map List.flatten

/-- The parts before and after the first two colons in a row. -/
def cutAtGap? : List Char → Option (List Char × List Char)
  | ':' :: ':' :: cs => some ([], cs)
  | c :: cs => (cutAtGap? cs).map fun (a, b) => (c :: a, b)
  | [] => none

/-- The eight words of an address; two colons in a row stand for zeros. -/
def words? (cs : List Char) : Option (List Nat) :=
  match cutAtGap? cs with
  | none => (groups? true cs).filter fun ws => ws.length == 8
  | some (front, back) =>
    match groups? false front, groups? true back with
    | some a, some b =>
      if a.length + b.length ≤ 7 then some (a ++ List.replicate (8 - a.length - b.length) 0 ++ b)
      else none
    | _, _ => none

/-- The number of zeros at the beginning of a list. -/
def zeros (ws : List Nat) : Nat :=
  (ws.takeWhile (· == 0)).length

/-- The longest run of at least two zeros: its place and its length. -/
def longestGap? (ws : List Nat) : Option (Nat × Nat) :=
  (List.range ws.length).foldl (fun best i =>
    let n := zeros (ws.drop i)
    let longest := (best.map (·.2)).getD 1
    if longest < n then some (i, n) else best) none

/-- Words in small hexadecimal digits, with colons between them. -/
def wordsText (ws : List Nat) : List Char :=
  [':'].intercalate (ws.map (Nat.toDigits 16))

def eightWords (ws : List Nat) : List Char :=
  match longestGap? ws with
  | none => wordsText ws
  | some (i, n) => wordsText (ws.take i) ++ ':' :: ':' :: wordsText (ws.drop (i + n))

def host? (cs : List Char) : Option String :=
  match cs with
  | [] => none
  | '[' :: rest =>
    match Text.beforeEnd? [']'] rest with
    | none => none
    | some inner => (words? inner).map fun ws => String.ofList ('[' :: (eightWords ws ++ [']']))
  | cs =>
    match Text.Percent.decode? (String.ofList cs) with
    | none => none
    | some decoded =>
      let name := decoded.toList.map Text.lowerChar
      if name.isEmpty || name.any isForbiddenInName then none
      else if endsInNumber name then (fourOctets? name).map String.ofList
      else some (String.ofList name)

end VideoGateway.Url

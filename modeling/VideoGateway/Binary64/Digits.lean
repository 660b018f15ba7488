import VideoGateway.Binary64.Basic
import VideoGateway.Text.Integer

/-!
# Shortest decimal digits

The decimal text of a value has the fewest significant digits that still round
to the value, and among those the ones nearest to it. Two notations use these
digits: the plain one, without an exponent, and the one of JSON numbers.
-/
namespace VideoGateway.Binary64

/-- A decimal magnitude: `digits` times ten to the power of `exponent`. -/
structure Decimal where
  digits : Nat
  exponent : Int
deriving DecidableEq, Repr

namespace Decimal

/-- The rank of the binary64 magnitude nearest to a decimal one. -/
def rank (d : Decimal) : Nat :=
  if 0 ≤ d.exponent then nearestRank (d.digits * tenTo d.exponent.toNat * unitsPerOne) 1
  else nearestRank (d.digits * unitsPerOne) (tenTo (-d.exponent).toNat)

/-- Moves the zeros at the end of the digits into the exponent, at most `fuel`
of them. -/
def normalizeAux : Nat → Decimal → Decimal
  | 0, d => d
  | fuel + 1, d =>
    if d.digits ≠ 0 ∧ d.digits % 10 = 0 then
      normalizeAux fuel ⟨d.digits / 10, d.exponent + 1⟩
    else d

/-- The same magnitude without zeros at the end of its digits. -/
def normalize (d : Decimal) : Decimal :=
  normalizeAux (Nat.toDigits 10 d.digits).length d

end Decimal

/-- Ten to a power below every magnitude, as its exponent's opposite. -/
def scaleDigits : Nat := 400

/-- The decimal exponent of the first significant digit of a magnitude that is
not zero, given in units. -/
def leadingExponent (u : Nat) : Int :=
  ((Nat.toDigits 10 (u * tenTo scaleDigits / unitsPerOne)).length : Int) - 1 - scaleDigits

/-- How a magnitude halfway between two candidates is written. -/
inductive Tie where
  | up
  | even
deriving DecidableEq, Repr

/-- The candidate with `count` digits for the magnitude of a rank: of the two
neighbours on that decimal grid that round to the rank, the nearer one. -/
def candidate? (tie : Tie) (r count : Nat) : Option Decimal :=
  let u := units r
  let e := leadingExponent u - (count - 1 : Nat)
  let num := if 0 ≤ e then u else u * tenTo (-e).toNat
  let den := if 0 ≤ e then unitsPerOne * tenTo e.toNat else unitsPerOne
  let q := num / den
  let rest := 2 * (num % den)
  let below : Decimal := ⟨q, e⟩
  let above : Decimal := ⟨q + 1, e⟩
  let preferAbove := rest > den || (rest == den && (tie == .up || q % 2 == 1))
  match decide (below.rank = r), decide (above.rank = r) with
  | true, true => some (if preferAbove then above else below)
  | true, false => some below
  | false, true => some above
  | false, false => none

def exactDecimal (r : Nat) : Decimal :=
  ⟨units r * (tenTo unitBits / unitsPerOne), -(unitBits : Int)⟩

/-- The shortest decimal that rounds to the magnitude of a rank. Seventeen
digits always suffice; beyond them the exact magnitude is given. -/
def shortest (tie : Tie) (r : Nat) : Decimal :=
  (((List.range 17).findSome? fun i => candidate? tie r (i + 1)).getD (exactDecimal r)).normalize

/-- Digits with a decimal point after the first `point` of them; zeros fill up
on either side. -/
def positional (cs : List Char) (point : Int) (whole : List Char) : List Char :=
  if point ≤ 0 then '0' :: '.' :: (List.replicate (-point).toNat '0' ++ cs)
  else if (cs.length : Int) ≤ point then
    cs ++ List.replicate (point.toNat - cs.length) '0' ++ whole
  else cs.take point.toNat ++ '.' :: cs.drop point.toNat

/-- The digits of a decimal and the position of the point after them. -/
def Decimal.layout (d : Decimal) : List Char × Int :=
  let cs := Nat.toDigits 10 d.digits
  (cs, cs.length + d.exponent)

/-- A magnitude in plain notation: no exponent, no point after a whole number. -/
def plainMagnitude (r : Nat) : List Char :=
  if r = 0 then ['0']
  else
    let (cs, point) := (shortest .up r).layout
    positional cs point []

/-- A magnitude in the notation of JSON numbers: `.0` after a whole number, and
an exponent below 10⁻⁵ and from 10¹⁶ on. -/
def jsonMagnitude (r : Nat) : List Char :=
  if r = 0 then "0.0".toList
  else
    let (cs, point) := (shortest .even r).layout
    if -5 < point && point ≤ 16 then positional cs point ".0".toList
    else
      let e := point - 1
      let mantissa := match cs with
        | [] => []
        | [c] => [c]
        | c :: rest => c :: '.' :: rest
      mantissa ++ 'e' :: (if e < 0 then [] else ['+']) ++ (Text.intText e).toList

def plainText : Binary64 → String
  | .finite s r => String.ofList ((if s then ['-'] else []) ++ plainMagnitude r)
  | .infinite s => if s then "-inf" else "inf"
  | .nan => "NaN"

def jsonText? : Binary64 → Option String
  | .finite s r => some (String.ofList ((if s then ['-'] else []) ++ jsonMagnitude r))
  | _ => none

end VideoGateway.Binary64

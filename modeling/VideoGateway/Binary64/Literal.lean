import VideoGateway.Binary64.Basic
import VideoGateway.Word

/-!
# Reading decimal literals

A literal is read in two steps: as many leading digits as fit in 64 bits make a
whole number, and the value nearest to it is multiplied or divided by the value
nearest to a power of ten. Each step rounds, so a literal of more than fifteen
digits may be read as a neighbour of the value nearest to it. A literal beyond
the finite values has no reading; one below them is zero.
-/
namespace VideoGateway.Binary64

/-- The greatest whole number that the leading digits may make. -/
def significandLimit : Nat := Word.greatest64

/-- The greatest power of ten that is a finite value. -/
def greatestPower : Nat := 308

def powerOfTen (k : Nat) : Binary64 := ofNat (tenTo k)

/-- Extends a whole number by the digits that keep it within the limit; the
digits from the first one that does not are left over. -/
def takeDigits (n : Nat) : List Char → Nat × List Char
  | [] => (n, [])
  | c :: cs =>
    let extended := n * 10 + (c.toNat - '0'.toNat)
    if extended ≤ significandLimit then takeDigits extended cs else (n, c :: cs)

/-- A value times a power of ten, one rounded factor at a time. -/
def scale? (x : Binary64) (e : Int) : Option Binary64 :=
  if 0 ≤ e then
    if e ≤ greatestPower then
      let y := x.mul (powerOfTen e.toNat)
      if y.isFinite then some y else none
    else if x.isZero then some x
    else none
  else if -e ≤ greatestPower then some (x.div (powerOfTen (-e).toNat))
  else if x.isZero then some x
  else scale? (x.div (powerOfTen greatestPower)) (e + greatestPower)
termination_by (-e).toNat
decreasing_by
  simp only [greatestPower] at *
  omega

/-- The value of a whole number times a power of ten, with a sign. -/
def ofParts? (negative : Bool) (n : Nat) (e : Int) : Option Binary64 :=
  (scale? (ofNat n) e).map fun x => if negative then x.neg else x

end VideoGateway.Binary64

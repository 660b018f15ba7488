/-!
# Binary floating point with 64 bits

A finite value is a sign and the rank of its magnitude among all finite
magnitudes, so each value has one representation and the order of magnitudes is
the order of ranks. Every finite magnitude is a whole number of units of
2⁻¹⁰⁷⁴; arithmetic is exact in these units and rounds once, to the nearest
magnitude and to the even one on a tie.
-/
namespace VideoGateway

/-- The number of magnitudes in a binade, which is 2⁵². -/
def Binary64.binade : Nat := 0x10000000000000

/-- The number of finite magnitudes, in 2047 binades. -/
def Binary64.magnitudes : Nat := 2047 * binade

/-- A binary64 value. All values that are not numbers are one. -/
inductive Binary64 where
  | finite (negative : Bool) (rank : Fin Binary64.magnitudes)
  | infinite (negative : Bool)
  | nan
deriving DecidableEq

namespace Binary64

/-- The size of the finest unit is two to the power of minus this. -/
def unitBits : Nat := 1074

/-- The number of finest units in the value one. -/
def unitsPerOne : Nat := 1 <<< unitBits

/-- The magnitude of a rank, as a significand and the binary exponent of its
unit over the finest one. -/
def significand (rank : Nat) : Nat × Nat :=
  let shift := rank / binade - 1
  (rank - shift * binade, shift)

/-- The magnitude of a rank, in units of 2⁻¹⁰⁷⁴. -/
def units (rank : Nat) : Nat :=
  let (m, shift) := significand rank
  m <<< shift

/-- The rank nearest to the quotient of `num` and `den`, counted in units; the
rank may lie beyond the finite ones. -/
def nearestRank (num den : Nat) : Nat :=
  let shift := (num / den).log2 - 52
  let step := den <<< shift
  let m := num / step
  let rest := 2 * (num % step)
  let up := rest > step || (rest == step && m % 2 == 1)
  shift * binade + m + (if up then 1 else 0)

/-- The value of a rank; ranks beyond the finite ones are infinite. -/
def ofRank (negative : Bool) (rank : Nat) : Binary64 :=
  if h : rank < magnitudes then .finite negative ⟨rank, h⟩ else .infinite negative

/-- The value nearest to a quotient of natural numbers, with a sign. -/
def ofQuotient (negative : Bool) (num den : Nat) : Binary64 :=
  ofRank negative (nearestRank (num * unitsPerOne) den)

def ofNat (n : Nat) : Binary64 := ofQuotient false n 1

def ofInt : Int → Binary64
  | .ofNat n => ofNat n
  | .negSucc n => ofQuotient true (n + 1) 1

def tenTo (k : Nat) : Nat := Nat.pow 10 k

def zero : Binary64 := ofNat 0

def one : Binary64 := ofNat 1

def neg : Binary64 → Binary64
  | .finite s r => .finite (!s) r
  | .infinite s => .infinite (!s)
  | .nan => .nan

def isFinite : Binary64 → Bool
  | .finite _ _ => true
  | _ => false

def isZero : Binary64 → Bool
  | .finite _ r => r.val == 0
  | _ => false

def mul : Binary64 → Binary64 → Binary64
  | .nan, _ | _, .nan => .nan
  | .finite s a, .finite t b =>
    ofQuotient (s != t) (units a * units b) (unitsPerOne * unitsPerOne)
  | .infinite s, .infinite t => .infinite (s != t)
  | .infinite s, .finite t b => if b.val = 0 then .nan else .infinite (s != t)
  | .finite s a, .infinite t => if a.val = 0 then .nan else .infinite (s != t)

def div : Binary64 → Binary64 → Binary64
  | .nan, _ | _, .nan => .nan
  | .finite s a, .finite t b =>
    if b.val = 0 then
      if a.val = 0 then .nan else .infinite (s != t)
    else ofQuotient (s != t) (units a) (units b)
  | .infinite _, .infinite _ => .nan
  | .infinite s, .finite t _ => .infinite (s != t)
  | .finite s _, .infinite t => ofQuotient (s != t) 0 1

/-- The place of a value that is a number in their order; both zeros share one
place and the infinities stand beyond the finite values. -/
def place? : Binary64 → Option Int
  | .finite s r => some (if s then -(r.val : Int) else r.val)
  | .infinite s => some (if s then -(magnitudes : Int) else magnitudes)
  | .nan => none

/-- Whether one value is at most another; never so for a value that is not a
number. -/
def le (x y : Binary64) : Bool :=
  match x.place?, y.place? with
  | some a, some b => a ≤ b
  | _, _ => false

def lt (x y : Binary64) : Bool :=
  match x.place?, y.place? with
  | some a, some b => a < b
  | _, _ => false

/-- The integer that a value is equal to, if there is one. -/
def toInt? : Binary64 → Option Int
  | .finite s r =>
    let u := units r
    if u % unitsPerOne = 0 then
      let n := u / unitsPerOne
      some (if s then -(n : Int) else n)
    else none
  | _ => none

end Binary64

end VideoGateway

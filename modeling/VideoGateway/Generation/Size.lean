import VideoGateway.Text.Ascii
import VideoGateway.Text.Blank
import VideoGateway.Text.Integer
import VideoGateway.Word

/-!
# Sizes, resolutions and aspect ratios

A resolution is written `1080p`, as a size `1920x1080` of which the height
counts, or as the bare height. A size also tells an aspect ratio, in lowest
terms.
-/
namespace VideoGateway.Size

/-- The aspect ratios of the usual sizes. -/
def known : List (String × String) :=
  [("1920x1080", "16:9"), ("1280x720", "16:9"), ("1080x1920", "9:16"), ("720x1280", "9:16"),
    ("1024x1024", "1:1"), ("512x512", "1:1")]

/-- The digits with the unit of resolutions behind them. -/
def withUnit? (digits : List Char) : Option String :=
  if Text.isDigits digits then some (String.ofList (digits ++ ['p'])) else none

/-- The resolution that a text tells, as digits and the letter `p`. -/
def resolution? (s : String) : Option String :=
  let cs := (Text.lower (Text.trim s)).toList
  match Text.beforeEnd? ['p'] cs with
  | some digits => withUnit? digits
  | none =>
    match Text.cutAt? 'x' cs with
    | some (_, height) => withUnit? (Text.dropBoth Text.isBlank height)
    | none => withUnit? cs

/-- A positive number of 64 bits between blanks. -/
def extent? (cs : List Char) : Option Nat :=
  match Text.readDigits? Word.greatest64 (Text.dropBoth Text.isBlank cs) with
  | some n => if 0 < n then some n else none
  | none => none

/-- One round of Euclid's algorithm: the second number takes the place of the
first one, and the remainder by it takes its own. -/
def euclidRound (pair : Nat × Nat) : Nat × Nat :=
  (pair.2, pair.1 % pair.2)

/-- The greatest common divisor of a pair, by rounds until the second number is
zero. -/
def commonDivisor (pair : Nat × Nat) : Nat :=
  if pair.2 = 0 then pair.1 else commonDivisor (euclidRound pair)
termination_by pair.2
decreasing_by exact Nat.mod_lt _ (Nat.pos_of_ne_zero ‹_›)

theorem commonDivisor_eq_gcd (pair : Nat × Nat) : commonDivisor pair = pair.1.gcd pair.2 := by
  fun_induction commonDivisor pair with
  | case1 pair h => rw [h, Nat.gcd_zero_right]
  | case2 pair _ ih => rw [ih, euclidRound, Nat.gcd_comm, ← Nat.gcd_rec, Nat.gcd_comm]

/-- The ratio of two numbers in lowest terms. -/
def ratioText (width height : Nat) : String :=
  let d := commonDivisor (width, height)
  Text.natText (width / d) ++ ":" ++ Text.natText (height / d)

def ratio? (s : String) : Option String :=
  let size := Text.trim s
  match known.lookup size with
  | some ratio => some ratio
  | none =>
    match Text.cutAt? 'x' size.toList with
    | none => none
    | some (width, height) =>
      match extent? width, extent? height with
      | some w, some h => some (ratioText w h)
      | _, _ => none

end VideoGateway.Size

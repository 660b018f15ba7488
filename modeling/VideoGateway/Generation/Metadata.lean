import VideoGateway.Json.Basic
import VideoGateway.Text.Blank
import VideoGateway.Word

/-!
# Values of free-form metadata

Metadata may hold any JSON value. Each reading accepts the values of one kind
and takes every other value for absent.
-/
namespace VideoGateway.Metadata

/-- A signed integer, from a number without a fraction. A number beyond the
signed range goes by its binary64 value, and one that this places at the upper
bound is the greatest integer. -/
def int? : Json → Option Int
  | .num (.int n) =>
    if Word.leastSigned64 ≤ n ∧ n ≤ Word.greatestSigned64 then some n else ofReal? (.ofInt n)
  | .num (.real x) => ofReal? x
  | _ => none
where
  /-- The integer equal to a binary64 value from minus 2⁶³ up to 2⁶³. -/
  ofReal? (x : Binary64) : Option Int :=
    match x.toInt? with
    | none => none
    | some n =>
      if Word.leastSigned64 ≤ n ∧ n ≤ Word.greatestSigned64 + 1 then
        some (min n Word.greatestSigned64)
      else none

/-- The binary64 value of a number, when it is finite. -/
def real? : Json → Option Binary64
  | .num n => if n.toBinary64.isFinite then some n.toBinary64 else none
  | _ => none

def bool? : Json → Option Bool
  | .bool b => some b
  | _ => none

/-- The trimmed text of a string that is not blank. -/
def text? : Json → Option String
  | .str s => Text.nonBlank? s
  | _ => none

end VideoGateway.Metadata

import VideoGateway.Text.Cut

/-!
# Model patterns

A pattern without a star matches the model of that very name. One star stands
for any text, the empty one included. A pattern with more stars matches nothing.
-/
namespace VideoGateway

/-- A pattern of model names, by the place of its star. -/
inductive Pattern where
  | exact (name : String)
  | startsWith (front : String)
  | endsWith (back : String)
  | between (front back : String)
  | invalid
deriving DecidableEq, Repr

namespace Pattern

def parse (s : String) : Pattern :=
  match Text.splitOnce? '*' s with
  | none => .exact s
  | some (front, back) =>
    if back.toList.contains '*' then .invalid
    else if front.isEmpty then .endsWith back
    else if back.isEmpty then .startsWith front
    else .between front back

/-- Whether a pattern matches a model name. The two ends of `between` must not
overlap in the name. -/
def accepts : Pattern → String → Bool
  | .exact name, model => name == model
  | .startsWith front, model => Text.hasStart front model
  | .endsWith back, model => Text.hasEnd back model
  | .between front back, model =>
    decide (front.utf8ByteSize + back.utf8ByteSize ≤ model.utf8ByteSize) &&
      Text.hasStart front model && Text.hasEnd back model
  | .invalid, _ => false

end Pattern

end VideoGateway

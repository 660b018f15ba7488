import VideoGateway.Generation.Metadata
import VideoGateway.Json.Record
import VideoGateway.Json.Writer
import VideoGateway.Price.Pattern

/-!
# Price rules

A rule multiplies the price of a video when its model matches and one of its
parameters has a given value. The price ratio is the product of the rules that
apply, in their order; rules with the same pattern, parameter and value count
once.
-/
namespace VideoGateway

/-- A rule for the price of a video. -/
structure PriceRule where
  /-- A model name or a pattern. -/
  model : String
  key : String
  value : String
  ratio : Binary64
deriving DecidableEq

/-- A set of rules, which may be switched off as a whole. -/
structure PriceRules where
  rules : List PriceRule
  enabled : Bool
deriving DecidableEq

namespace PriceRule

open Document (Slot Reading)

def modelSlot : Slot String := .required "model" .string
def keySlot : Slot String := .required "param_key" .string
def valueSlot : Slot String := .required "param_value" .string
def ratioSlot : Slot Binary64 := .required "ratio" .real

def read : Reading PriceRule := fun d => do
  let r ← Document.Record.ofDocument
    [modelSlot.field, keySlot.field, valueSlot.field, ratioSlot.field] d
  pure ⟨← r.get modelSlot, ← r.get keySlot, ← r.get valueSlot, ← r.get ratioSlot⟩

def toJson (r : PriceRule) : Json :=
  .object [("model", .str r.model), ("param_key", .str r.key), ("param_value", .str r.value),
    ("ratio", .real r.ratio)]

/-- The form in which a parameter is compared with the value of a rule. Whole
numbers have no fraction, `null` has no form. -/
def comparable? : Json → Option String
  | .null => none
  | .str s => some s
  | .bool b => some (if b then "true" else "false")
  | .num (.int n) => some (Text.intText n)
  | .num (.real x) =>
    match x.toInt? with
    | some n => if n.natAbs < 1000000000000000 then some (Text.intText n) else some x.plainText
    | none => some x.plainText
  | v => some v.text

def applies (r : PriceRule) (model : String) (params : Json.Members) : Bool :=
  (Pattern.parse r.model).accepts model && (params.get? r.key).bind comparable? == some r.value

/-- What makes two rules count as one. -/
def identity (r : PriceRule) : String × String × String :=
  (r.model, r.key, r.value)

/-- Whether a ratio is fit for a price. -/
def isSound (r : PriceRule) : Bool :=
  r.ratio.isFinite && Binary64.zero.le r.ratio

end PriceRule

namespace PriceRules

open Document (Slot Reading)

def empty : PriceRules := ⟨[], true⟩

def starter : PriceRules :=
  ⟨[⟨"doubao-*", "resolution", "720p", .ofQuotient false 8 10⟩,
    ⟨"doubao-*", "resolution", "1080p", .one⟩,
    ⟨"doubao-*", "duration", "5", .one⟩,
    ⟨"doubao-*", "duration", "10", .ofQuotient false 18 10⟩], true⟩

def rulesSlot : Slot (List PriceRule) := .defaulted "rules" (.list PriceRule.read) []
def enabledSlot : Slot Bool := .defaulted "enabled" .bool true

def read : Reading PriceRules := fun d => do
  let r ← Document.Record.ofDocument [rulesSlot.field, enabledSlot.field] d
  pure ⟨← r.get rulesSlot, ← r.get enabledSlot⟩

def toJson (p : PriceRules) : Json :=
  .object [("rules", .arr (p.rules.map PriceRule.toJson)), ("enabled", .bool p.enabled)]

/-- The first rule of each identity, among those that apply and whose identity
is not in `seen`. -/
def applied (model : String) (params : Json.Members) :
    (seen : List (String × String × String)) → List PriceRule → List PriceRule
  | _, [] => []
  | seen, r :: rs =>
    if r.applies model params && !seen.contains r.identity then
      r :: applied model params (r.identity :: seen) rs
    else applied model params seen rs

/-- The price ratio of a video: one, times the ratio of every rule that counts. -/
def ratio (p : PriceRules) (model : String) (params : Json.Members) : Binary64 :=
  if p.enabled then
    (applied model params [] p.rules).foldl (fun total r => total.mul r.ratio) .one
  else .one

/-- Whether every ratio is fit for a price; otherwise the first rule that is not. -/
def unsound? (p : PriceRules) : Option PriceRule :=
  p.rules.find? fun r => !r.isSound

/-- Installs the rules of a text; a text that does not give rules changes
nothing. -/
def update (current : PriceRules) (text : Bytes) : Except Document.Fault PriceRules × PriceRules :=
  match Document.readText read text with
  | .ok rules => (.ok rules, rules)
  | .error fault => (.error fault, current)

end PriceRules

end VideoGateway

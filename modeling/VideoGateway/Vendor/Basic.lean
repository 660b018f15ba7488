import VideoGateway.Capability.Tables
import VideoGateway.Text.Cut

/-!
# Vendors and the models they serve

A model id that begins with a vendor's name and a slash goes to that vendor
without this beginning. Any other id is matched against the vendors' naming of
models, whatever its letter case, and is handed on unchanged.
-/
namespace VideoGateway

/-- A vendor of generated videos. -/
inductive Vendor where
  | doubao
  | hailuo
  | openAi
deriving DecidableEq, Repr

namespace Vendor

def id : Vendor → String
  | .doubao => "doubao"
  | .hailuo => "hailuo"
  | .openAi => "openai"

def ofId? (s : String) : Option Vendor :=
  [Vendor.doubao, .hailuo, .openAi].find? (·.id == s)

def capabilities : Vendor → CapabilityTable
  | .doubao => .doubao
  | .hailuo => .hailuo
  | .openAi => .openAi

/-- The names that select a vendor explicitly. -/
def selectors : List (String × Vendor) :=
  [("doubao/", .doubao), ("hailuo/", .hailuo), ("minimax/", .hailuo), ("openai/", .openAi)]

/-- The beginnings of the vendors' model names. -/
def families : List (String × Vendor) :=
  [("doubao-", .doubao), ("minimax-", .hailuo), ("t2v-", .hailuo), ("i2v-", .hailuo),
    ("s2v-", .hailuo), ("sora-", .openAi)]

/-- The vendor that serves a model id, and the vendor's name of the model. -/
def route? (model : String) : Option (Vendor × String) :=
  match selectors.findSome? fun (selector, v) =>
      (Text.stripStart? selector model).map fun rest => (v, rest) with
  | some routed => some routed
  | none =>
    let folded := Text.lower model
    (families.find? fun (family, _) => Text.hasStart family folded).map fun (_, v) => (v, model)

end Vendor

end VideoGateway

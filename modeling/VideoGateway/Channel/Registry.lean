import VideoGateway.Vendor.Basic
import VideoGateway.Task.Error
import VideoGateway.Text.Blank

/-!
# Channels

A channel is an account with a vendor: where to send requests and with which
key. Requests for a model go to the first channel of the vendor that serves it.
-/
namespace VideoGateway

/-- An account with a vendor. -/
structure Channel where
  id : Nat
  vendor : Vendor
  /-- Without slashes at its end. -/
  baseUrl : String
  key : String
  proxy : Option String
deriving DecidableEq, Repr

namespace Channel

/-- A channel without a proxy. -/
def new (id : Nat) (vendor : Vendor) (baseUrl key : String) : Channel :=
  ⟨id, vendor, Text.trimRight (· == '/') baseUrl, key, none⟩

/-- The address of a path below the channel's base, with one slash between. -/
def endpoint (baseUrl path : String) : String :=
  Text.trimRight (· == '/') baseUrl ++ "/" ++ Text.trimLeft (· == '/') path

end Channel

/-- The configured channels, in order. -/
abbrev Registry := List Channel

namespace Registry

/-- The channel that serves a model, and the vendor's name of the model. -/
def resolve (r : Registry) (model : String) : Except TaskError (Channel × String) :=
  match Vendor.route? model with
  | none => .error (.unknownModel model)
  | some (vendor, name) =>
    match List.find? (·.vendor == vendor) r with
    | none => .error (.channelNotConfigured vendor.id)
    | some channel => .ok (channel, name)

/-- The first channel with a number. -/
def byId? (r : Registry) (id : Nat) : Option Channel :=
  List.find? (·.id == id) r

end Registry

end VideoGateway

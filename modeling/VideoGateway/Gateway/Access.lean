import VideoGateway.Gateway.Error

/-!
# Access to the gateway

Clients show a key as a bearer token in the first authorization header. A
gateway without keys is open to everyone.
-/
namespace VideoGateway.Access

def bearerToken (headers : Http.Headers) : Except GatewayError String :=
  match headers.get? "authorization" with
  | none => .error (.unauthorized "Missing authorization header")
  | some value =>
    match Http.HeaderValue.toText? value with
    | none => .error (.unauthorized "Invalid authorization header")
    | some text =>
      match Text.stripStart? "Bearer " text with
      | none => .error (.unauthorized "Authorization must use Bearer token")
      | some token =>
        if Text.isBlankText token then .error (.unauthorized "Bearer token is empty")
        else .ok token

def checkToken (keys : List String) (token : String) : Except GatewayError Unit :=
  if keys.isEmpty || keys.contains token then .ok ()
  else .error (.unauthorized "Invalid gateway API key")

def authorize (keys : List String) (headers : Http.Headers) : Except GatewayError Unit :=
  if keys.isEmpty then .ok ()
  else
    match bearerToken headers with
    | .error e => .error e
    | .ok token => checkToken keys token

end VideoGateway.Access

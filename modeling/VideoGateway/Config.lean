import VideoGateway.Channel.Registry
import VideoGateway.Storage.Config
import VideoGateway.Url.Reader

/-!
# Configuration

What the gateway is set up with, from variables. A number that cannot be read
counts as not set, and there is a channel for each vendor whose key is set.
-/
namespace VideoGateway

/-- The configuration of the gateway. -/
structure Config where
  host : String
  port : Nat
  gatewayKeys : List String
  /-- In seconds. -/
  requestTimeout : Nat
  maxRetries : Nat
  /-- In milliseconds. -/
  retryDelay : Nat
  channels : Registry
  /-- In seconds. -/
  pollInterval : Nat
  /-- In seconds. -/
  pollTimeout : Nat
  pollConcurrency : Nat
  priceRules : Option String
  storage : StorageConfig

namespace Config

def positive? (env : Environment) (name : String) : Option Nat :=
  (env.nat? name Word.greatest64).filter (0 < ·)

/-- The beginning of the names of a vendor's variables, and the vendor's
address. -/
def vendorDefaults : Vendor → String × String
  | .doubao => ("DOUBAO", "https://ark.cn-beijing.volces.com")
  | .hailuo => ("HAILUO", "https://api.minimaxi.com")
  | .openAi => ("OPENAI", "https://api.openai.com")

/-- The channel of a vendor, if there is a key for it. -/
def channel? (env : Environment) (id : Nat) (v : Vendor) : Option Channel :=
  let (start, address) := vendorDefaults v
  (env.text? (start ++ "_API_KEY")).map fun key =>
    { Channel.new id v ((env.text? (start ++ "_BASE_URL")).getD address) key with
      proxy := env.text? (start ++ "_PROXY") }

/-- The keys in a list with commas. -/
def keys (list : String) : List String :=
  (Text.split ',' list).filterMap Text.nonBlank?

def ofEnvironment (env : Environment) : Config where
  host := (env "HOST").getD "0.0.0.0"
  port := (env.nat? "PORT" Word.greatest16).getD 3000
  gatewayKeys := keys ((env "GATEWAY_API_KEYS").getD "")
  requestTimeout := (env.nat? "REQUEST_TIMEOUT_SECS" Word.greatest64).getD 120
  maxRetries := (env.nat? "UPSTREAM_MAX_RETRIES" Word.greatest32).getD 2
  retryDelay := (env.nat? "UPSTREAM_RETRY_BASE_DELAY_MS" Word.greatest64).getD 150
  channels := [(1, Vendor.doubao), (2, .hailuo), (3, .openAi)].filterMap fun (id, v) =>
    channel? env id v
  pollInterval := (positive? env "TASK_POLL_INTERVAL_SECS").getD 15
  pollTimeout := (positive? env "TASK_POLL_TIMEOUT_SECS").getD 3600
  pollConcurrency := (positive? env "TASK_POLL_CONCURRENCY").getD 8
  priceRules := env.text? "PARAM_RATIO_CONFIG"
  storage := .ofEnvironment env

def listenAddress (c : Config) : String :=
  c.host ++ ":" ++ Text.natText c.port

/-- Whether calls can go through a proxy: it is not set, or it is an address, of
which the scheme may be missing. -/
def proxyUsable (proxy : String) : Bool :=
  match Text.nonBlank? proxy with
  | none => true
  | some proxy =>
    (Url.parse? proxy).isSome || (!namesScheme proxy && (Url.parse? ("http://" ++ proxy)).isSome)
where
  /-- Whether a text begins with the scheme of an address with a host. -/
  namesScheme (s : String) : Bool :=
    match Url.scheme? (Url.significant s) with
    | some (scheme, _) => (Url.impliedPorts.lookup scheme).isSome
    | none => false

end Config

end VideoGateway

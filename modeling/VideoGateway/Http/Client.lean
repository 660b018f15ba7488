import VideoGateway.Http.Message
import VideoGateway.Url.Reader

/-!
# The HTTP client

A call becomes a message with an address in its parts, which is sent to the
server of that address. A redirection is followed to the place it names, for
some times; what is meant for the first server only is not sent to another one.
-/
namespace VideoGateway.Http

/-- A request as a server receives it. -/
structure Sent where
  method : Method
  url : Url
  headers : Headers
  body : Option Json

/-- Servers with a state: each request is answered, or the connection breaks. -/
abbrev Servers (σ : Type) := Sent → σ → Option Response × σ

def base64Char (n : Nat) : Char :=
  let n := n % 64
  if n < 26 then Char.ofNat (0x41 + n)
  else if n < 52 then Char.ofNat (0x47 + n)
  else if n < 62 then Char.ofNat (n - 4)
  else if n = 62 then '+' else '/'

/-- Three octets as four letters each, filled up with equals signs. -/
def base64 : Bytes → List Char
  | a :: b :: c :: rest =>
    let n := a.toNat * 65536 + b.toNat * 256 + c.toNat
    base64Char (n / 262144) :: base64Char (n / 4096) :: base64Char (n / 64) :: base64Char n ::
      base64 rest
  | [a, b] =>
    let n := a.toNat * 65536 + b.toNat * 256
    [base64Char (n / 262144), base64Char (n / 4096), base64Char (n / 64), '=']
  | [a] =>
    let n := a.toNat * 65536
    [base64Char (n / 262144), base64Char (n / 4096), '=', '=']
  | [] => []

def basicCredentials (u : Url) : Bytes :=
  let part (s : String) := Text.Percent.decodeBytes (Text.Utf8.encode s)
  HeaderValue.ofAscii "Basic " ++
    (base64 (part u.user ++ 0x3A :: part u.password)).map fun c => UInt8.ofNat c.toNat

namespace Headers

def setDefault (hs : Headers) (name : String) (value : Bytes) : Headers :=
  if (hs.get? name).isSome then hs else hs.set name value

end Headers

/-- The message of a call whose address has a host that can be called. -/
def Call.toSent? (call : Call) : Option Sent :=
  match Url.parse? call.url with
  | none => none
  | some url =>
    if ["http", "https"].contains url.scheme then
      let url := url.addPairs call.query
      let headers :=
        if url.credentials.isEmpty then call.headers
        else call.headers.setDefault "authorization" (basicCredentials url)
      let headers := headers.setDefault "accept" (HeaderValue.ofAscii "*/*")
      let headers :=
        if call.body.isSome then headers.setDefault "content-type" HeaderValue.applicationJson
        else headers
      some ⟨call.method, { url with user := "", password := "" }, headers, call.body⟩
    else none

/-- The header fields that only the first server gets. -/
def sensitiveHeaders : List String :=
  ["authorization", "cookie", "cookie2", "proxy-authorization", "www-authenticate"]

def bodyHeaders : List String :=
  ["transfer-encoding", "content-encoding", "content-type", "content-length"]

def Headers.removeAll (hs : Headers) (names : List String) : Headers :=
  names.foldl Headers.remove hs

def Response.location? (r : Response) (origin : Url) : Option Url :=
  ((r.headers.get? "location").bind Text.Utf8.decode?).bind origin.join?

/-- The message that follows a redirection, if the response is one. Another
server gets no credentials, and unless the method is to be kept, the next
message reads what is at the place. -/
def Sent.redirected? (m : Sent) (r : Response) : Option Sent :=
  if [301, 302, 303, 307, 308].contains r.status.code then
    match r.location? m.url with
    | none => none
    | some url =>
      let headers :=
        if url.origin == m.url.origin && url.scheme == m.url.scheme then m.headers
        else m.headers.removeAll sensitiveHeaders
      if [307, 308].contains r.status.code then some { m with url := url, headers := headers }
      else
        let method := if m.method = .head then .head else .get
        some ⟨method, url, headers.removeAll bodyHeaders, none⟩
  else none

def maxRedirections : Nat := 10

def follow (servers : Servers σ) : (left : Nat) → Sent → σ → Reply × σ
  | left, m, s =>
    match servers m s with
    | (none, s) => (.error .disconnected, s)
    | (some r, s) =>
      match m.redirected? r, left with
      | none, _ => (.ok r, s)
      | some _, 0 => (.error .redirectedTooOften, s)
      | some next, left + 1 => follow servers left next s

def call (servers : Servers σ) (c : Call) (s : σ) : Reply × σ :=
  match c.toSent? with
  | none => (.error .unsendable, s)
  | some m => follow servers maxRedirections m s

end VideoGateway.Http

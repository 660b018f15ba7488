import VideoGateway.Http.Header
import VideoGateway.Http.Status
import VideoGateway.Json.Writer
import VideoGateway.Word

/-!
# HTTP messages

A call is a request as it is given to the HTTP client: its address is still a
text, and names and values may have to be added to it. A response has its octets
at hand, as far as they arrived.
-/
namespace VideoGateway.Http

inductive Method where
  | get
  | head
  | post
  | put
  | options
  | other (name : String)
deriving DecidableEq, Repr

namespace Method

def text : Method → String
  | .get => "GET"
  | .head => "HEAD"
  | .post => "POST"
  | .put => "PUT"
  | .options => "OPTIONS"
  | .other name => name

def ofText (s : String) : Method :=
  ([get, head, post, put, options].find? (·.text == s)).getD (.other s)

end Method

/-- A request that is given to the HTTP client. -/
structure Call where
  method : Method
  url : String
  /-- Names and values that are added to the query of the address. -/
  query : List (String × String)
  headers : Headers
  body : Option Json

namespace Call

def get (url : String) (headers : Headers) : Call :=
  ⟨.get, url, [], headers, none⟩

def post (url : String) (headers : Headers) (body : Json) : Call :=
  ⟨.post, url, [], headers, some body⟩

end Call

/-- A request that arrives. -/
structure Request where
  method : Method
  /-- The path and the query, as sent. -/
  target : String
  headers : Headers
  body : Bytes

structure Response where
  status : Status
  headers : Headers
  /-- The octets that arrived. -/
  body : Bytes
  /-- Whether the body arrived to its end. -/
  complete : Bool

/-- Why a call got no response. -/
inductive SendFailure where
  /-- Nothing was sent: the call has no address that can be called. -/
  | unsendable
  | timedOut
  /-- The connection could not be made, or broke. -/
  | disconnected
  | redirectedTooOften
deriving DecidableEq, Repr

namespace SendFailure

def text : SendFailure → String
  | .unsendable => "the address cannot be called"
  | .timedOut => "no answer in time"
  | .disconnected => "the connection failed"
  | .redirectedTooOften => "redirected too often"

end SendFailure

/-- What becomes of a call. -/
abbrev Reply := Except SendFailure Response

namespace Headers

/-- The length of the body that the header fields announce. -/
def length? (hs : Headers) : Option Nat :=
  ((hs.get? "content-length").bind HeaderValue.toText?).bind (Text.readNat? Word.greatest64)

end Headers

namespace HeaderValue

def ofAscii (s : String) : Bytes :=
  Text.Utf8.encode s

def applicationJson : Bytes :=
  ofAscii "application/json"

end HeaderValue

end VideoGateway.Http

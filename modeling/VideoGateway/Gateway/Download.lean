import VideoGateway.Gateway.Program
import VideoGateway.Http.Retry
import VideoGateway.Storage.Location

/-!
# Downloads and stored copies

A download is tried again while its outcome may be different the next time. A
video is copied to the bucket piece by piece; a copy that does not have the
octets that were announced or received is not kept.
-/
namespace VideoGateway

namespace Http.RetryPolicy

/-- Makes a call, and makes it again up to `left` times; `attempt` calls were
made before. -/
def attempts (p : RetryPolicy) (c : Call) : (left attempt : Nat) → Program Reply
  | 0, _ => Program.effect (.call c)
  | left + 1, attempt => do
    let reply ← Program.effect (.call c)
    if isTransient reply then
      Program.effect (.wait (p.delay attempt))
      attempts p c left (attempt + 1)
    else pure reply

/-- Makes a call until its outcome stands or the attempts are used up. -/
def download (p : RetryPolicy) (c : Call) : Program Reply :=
  p.attempts c p.maxRetries 0

end Http.RetryPolicy

namespace Attempt

def bucket (op : Bucket.Operation) : Attempt StorageError op.Result :=
  ExceptT.mk ((·.mapError StorageError.bucket) <$> Program.effect (.bucket op))

end Attempt

/-- A piece of content, or the failure to get it. -/
abbrev Piece := Except StorageError Bytes

/-- The content that pieces make, or the first failure. -/
def joinPieces (pieces : List Piece) : Except StorageError Bytes :=
  (pieces.mapM id).map List.flatten

namespace BucketLocation

/-- Stores pieces of content under a key, if they make the announced size.
Gives the link to the object. -/
def upload (l : BucketLocation) (key : String) (pieces : List Piece) (size : Option Nat)
    (mediaType : String) : Attempt StorageError String := do
  let path := l.objectPath key
  Attempt.bucket (.begin path mediaType)
  match joinPieces pieces with
  | .error e =>
    let _ ← ExceptT.lift (Program.effect (.bucket (.abandon path)))
    throw e
  | .ok content =>
    match size.filter (· != content.length) with
    | some expected =>
      Attempt.bucket (.abandon path)
      throw (.incomplete expected content.length)
    | none =>
      Attempt.bucket (.finish path content)
      Attempt.ofExcept id (l.link key none)

def measure (l : BucketLocation) (key : String) : Attempt StorageError Nat :=
  Attempt.bucket (.measure (l.objectPath key))

def contains (l : BucketLocation) (key : String) : Attempt StorageError Bool := do
  match ← ExceptT.lift (l.measure key).run with
  | .ok _ => pure true
  | .error (.bucket .notFound) => pure false
  | .error e => throw e

def remove (l : BucketLocation) (key : String) : Attempt StorageError Unit :=
  Attempt.bucket (.remove (l.objectPath key))

/-- The link to an object, if the object is there. -/
def storedLink (l : BucketLocation) (key : String) : Attempt StorageError (Option String) := do
  if ← l.contains key then
    let link ← Attempt.ofExcept id (l.link key none)
    pure (some link)
  else pure none

end BucketLocation

structure StoredVideo where
  key : String
  url : String
  size : Nat
deriving DecidableEq, Repr

namespace Storage

/-- The pieces in which the body of a response arrives. -/
def piecesOf (url : String) (r : Http.Response) : List Piece :=
  .ok r.body :: if r.complete then [] else [.error (.download url "the response ended too early")]

def copyVideo (s : Storage) (policy : Http.RetryPolicy) (url taskId : String) (now : Instant) :
    Attempt StorageError StoredVideo := do
  match ← ExceptT.lift (policy.download (.get url [])) with
  | .error failure => throw (.download url failure.text)
  | .ok response =>
    if !response.status.isSuccess then
      throw (.download url ("upstream returned " ++ response.status.text))
    let contentType :=
      ((response.headers.get? "content-type").bind Http.HeaderValue.toText?).getD ""
    let key := VideoKey.make taskId (VideoKey.extension url contentType) now
    let link ← s.location.upload key (piecesOf url response) response.headers.length?
      (VideoKey.mediaType contentType)
    let received := response.body.length
    let stored ← s.location.measure key
    if stored != received then
      let _ ← ExceptT.lift (s.location.remove key).run
      throw (.incomplete received stored)
    pure ⟨key, link, received⟩

end Storage

end VideoGateway

import VideoGateway.Storage.Error
import VideoGateway.Text.Utf8

/-!
# Buckets

What is stored under which object path. An upload is begun, and its content is
there once it is finished; until then an earlier object of the same path stays.
-/
namespace VideoGateway

/-- The objects of a bucket by path, each path once. -/
abbrev Bucket := List (String × Bytes)

namespace Bucket

def get? (b : Bucket) (path : String) : Option Bytes :=
  b.lookup path

def erase (b : Bucket) (path : String) : Bucket :=
  b.filter (·.1 != path)

/-- Stores an object in place of an earlier one. -/
def put (b : Bucket) (path : String) (content : Bytes) : Bucket :=
  (path, content) :: b.erase path

inductive Operation where
  /-- Begins an upload of content of a media type. -/
  | begin (path mediaType : String)
  | finish (path : String) (content : Bytes)
  | abandon (path : String)
  /-- Asks for the size of an object. -/
  | measure (path : String)
  | remove (path : String)

/-- What a request gives when the bucket does not refuse it. -/
abbrev Operation.Result : Operation → Type
  | .measure _ => Nat
  | _ => Unit

def perform (b : Bucket) : (op : Operation) → Except BucketFault op.Result × Bucket
  | .begin _ _ => (.ok (), b)
  | .finish path content => (.ok (), b.put path content)
  | .abandon _ => (.ok (), b)
  | .measure path =>
    match b.get? path with
    | some content => (.ok content.length, b)
    | none => (.error .notFound, b)
  | .remove path => (.ok (), b.erase path)

end Bucket

end VideoGateway

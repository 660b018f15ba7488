import VideoGateway.Text.Integer

/-!
# Failures of object storage

Why a copy of a video could not be made or found.
-/
namespace VideoGateway

inductive BucketFault where
  | notFound
  | refused
deriving DecidableEq, Repr

inductive StorageError where
  /-- The configuration does not describe a bucket. -/
  | config (message : String)
  /-- The video could not be fetched. -/
  | download (url reason : String)
  /-- Another number of octets was stored than expected. -/
  | incomplete (expected written : Nat)
  | bucket (fault : BucketFault)
deriving DecidableEq, Repr

namespace BucketFault

def text : BucketFault → String
  | .notFound => "the object does not exist"
  | .refused => "the bucket refused"

end BucketFault

namespace StorageError

def text : StorageError → String
  | .config message => "invalid object storage configuration: " ++ message
  | .download url reason => "failed to download " ++ url ++ ": " ++ reason
  | .incomplete expected written =>
    "stored " ++ Text.natText written ++ " of " ++ Text.natText expected ++ " bytes"
  | .bucket fault => fault.text

def missingBucket : StorageError :=
  .config "OBJECT_STORAGE_BUCKET_NAME is required"

/-- The configuration has no access key, or no secret for it. -/
def missingAccessKey : StorageError :=
  .config "OBJECT_STORAGE_ACCESS_KEY_ID and OBJECT_STORAGE_ACCESS_KEY_SECRET are required"

/-- The configuration does not say where the bucket is. -/
def missingEndpoint (kind : String) : StorageError :=
  .config ("OBJECT_STORAGE_ENDPOINT is required for " ++ kind)

end StorageError

end VideoGateway

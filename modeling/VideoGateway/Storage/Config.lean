import VideoGateway.Text.Ascii
import VideoGateway.Text.Blank
import VideoGateway.Text.Cut
import VideoGateway.Text.Integer
import VideoGateway.Word

/-!
# Configuration of object storage

Which kind of bucket videos are copied to, where it is and how it is named.
Everything is given by variables; one that is blank counts as not set.
-/
namespace VideoGateway

inductive BucketKind where
  | none
  | s3
  | minio
  | oss
  | cos
deriving DecidableEq, Repr

namespace BucketKind

/-- The kind that a text selects, in any letter case. -/
def ofText? (s : String) : Option BucketKind :=
  let known : List (String × BucketKind) :=
    [("", .none), ("none", .none), ("s3", .s3), ("aws", .s3), ("minio", .minio), ("oss", .oss),
      ("aliyun", .oss), ("cos", .cos), ("tencent", .cos)]
  known.lookup (Text.lower (Text.trim s))

def id : BucketKind → String
  | .none => "none"
  | .s3 => "aws-s3"
  | .minio => "minio"
  | .oss => "aliyun-oss"
  | .cos => "tencent-cos"

/-- The part of an endpoint that tells that it is the default one. -/
def defaultDomain : String := "amazonaws.com"

def isDefaultEndpoint (endpoint : String) : Bool :=
  Text.hasPart defaultDomain endpoint

/-- Whether the bucket is part of the host name instead of the path. -/
def isHostNamed (k : BucketKind) (endpoint : String) : Bool :=
  match k with
  | .oss | .cos => true
  | .minio => false
  | .s3 | .none => endpoint.isEmpty || isDefaultEndpoint endpoint

end BucketKind

/-- Variables by name. -/
abbrev Environment := String → Option String

namespace Environment

/-- A variable that is not blank, trimmed. -/
def text? (env : Environment) (name : String) : Option String :=
  (env name).bind Text.nonBlank?

def nat? (env : Environment) (name : String) (bound : Nat) : Option Nat :=
  (env name).bind (Text.readNat? bound)

/-- A variable that switches something on or off. -/
def flag (env : Environment) (name : String) (default : Bool) : Bool :=
  match env.text? name with
  | some value => ["true", "1", "yes"].contains (Text.lower value)
  | none => default

end Environment

structure StorageConfig where
  kind : BucketKind
  endpoint : String
  accessKeyId : String
  accessKeySecret : String
  bucketName : String
  region : String
  secure : Bool
  basePath : String
  domain : Option String
  signsLinks : Bool
  /-- For how many seconds a signed link works. -/
  linkLifetime : Nat
  autoUpload : Bool
deriving DecidableEq, Repr

namespace StorageConfig

def defaultLifetime : Nat := 3600

def ofEnvironment (env : Environment) : StorageConfig where
  kind := ((env.text? "OBJECT_STORAGE_TYPE").bind BucketKind.ofText?).getD .none
  endpoint := (env.text? "OBJECT_STORAGE_ENDPOINT").getD ""
  accessKeyId := (env.text? "OBJECT_STORAGE_ACCESS_KEY_ID").getD ""
  accessKeySecret := (env.text? "OBJECT_STORAGE_ACCESS_KEY_SECRET").getD ""
  bucketName := (env.text? "OBJECT_STORAGE_BUCKET_NAME").getD ""
  region := (env.text? "OBJECT_STORAGE_REGION").getD ""
  secure := env.flag "OBJECT_STORAGE_USE_SSL" true
  basePath := (env.text? "OBJECT_STORAGE_BASE_PATH").getD "videos/"
  domain := (env.text? "OBJECT_STORAGE_DOMAIN").map (Text.trimRight (· == '/'))
  signsLinks := env.flag "OBJECT_STORAGE_PRESIGNED_URL_ENABLED" false
  linkLifetime :=
    (((env.text? "OBJECT_STORAGE_PRESIGNED_URL_EXPIRES").bind (Text.readNat? Word.greatest64)).filter
      (0 < ·)).getD defaultLifetime
  autoUpload := env.flag "OBJECT_STORAGE_AUTO_UPLOAD" true

def enabled (c : StorageConfig) : Bool :=
  c.kind != .none

/-- The beginning of every key: the base path with one slash at its end, or
nothing. -/
def keyPrefixOf (basePath : String) : String :=
  let base := Text.trimBoth (· == '/') basePath
  if base.isEmpty then "" else base ++ "/"

def regionOrDefault (c : StorageConfig) : String :=
  if c.region.isEmpty then "us-east-1" else c.region

def scheme (c : StorageConfig) : String :=
  if c.secure then "https" else "http"

/-- The address of the endpoint, with a scheme. -/
def endpointUrl? (c : StorageConfig) : Option String :=
  if c.endpoint.isEmpty then none
  else
    let endpoint := Text.trimRight (· == '/') c.endpoint
    if Text.hasStart "http://" endpoint || Text.hasStart "https://" endpoint then some endpoint
    else some (c.scheme ++ "://" ++ endpoint)

/-- The address of an endpoint other than the default one. -/
def customEndpoint? (c : StorageConfig) : Option String :=
  c.endpointUrl?.filter fun url => !BucketKind.isDefaultEndpoint url

def isHostNamed (c : StorageConfig) : Bool :=
  c.kind.isHostNamed c.endpoint

/-- The address of an endpoint with the bucket in its host name, unless the name
begins with it already. -/
def hostNamedEndpoint (c : StorageConfig) (endpoint : String) : String :=
  match Text.afterStart? "http://".toList endpoint.toList,
      Text.afterStart? "https://".toList endpoint.toList with
  | some host, _ => withBucket "http://" host
  | _, some host => withBucket "https://" host
  | none, none => endpoint
where
  /-- Puts the bucket before a host. -/
  withBucket (start : String) (host : List Char) : String :=
    let host := String.ofList host
    if Text.hasStart (c.bucketName ++ ".") host then start ++ host
    else start ++ c.bucketName ++ "." ++ host

end StorageConfig

end VideoGateway

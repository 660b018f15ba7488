import VideoGateway.Storage.Error
import VideoGateway.Storage.ObjectPath
import VideoGateway.Url.Reader

/-!
# Where stored objects are found

The public link to an object follows from the configuration. A signed link goes
to the address under which the bucket itself is called; it works for a limited
time, and its signature is not part of the text given here.
-/
namespace VideoGateway

/-- How links to objects are signed. -/
structure LinkSigning where
  /-- The address under which the bucket is called. -/
  address : String
  /-- For how many seconds a link works. -/
  lifetime : Nat
deriving DecidableEq, Repr

/-- A bucket as far as names and links of objects are concerned. -/
structure BucketLocation where
  name : String
  /-- The beginning of every key. -/
  keyStart : String
  publicBase : String
  signing : Option LinkSigning
deriving DecidableEq, Repr

namespace StorageConfig

/-- The beginning of public links. -/
def publicBase (c : StorageConfig) : String :=
  match c.domain, c.customEndpoint? with
  | some domain, _ => domain
  | none, some endpoint =>
    if c.isHostNamed then c.hostNamedEndpoint endpoint else endpoint ++ "/" ++ c.bucketName
  | none, none =>
    c.scheme ++ "://" ++ c.bucketName ++ ".s3." ++ c.regionOrDefault ++ "." ++
      BucketKind.defaultDomain

/-- The address under which the bucket is called. -/
def bucketAddress (c : StorageConfig) : String :=
  match c.customEndpoint? with
  | some endpoint =>
    if c.isHostNamed then c.hostNamedEndpoint endpoint
    else Text.trimRight (· == '/') endpoint ++ "/" ++ c.bucketName
  | none =>
    let host := "s3." ++ c.regionOrDefault ++ "." ++ BucketKind.defaultDomain
    if c.isHostNamed then "https://" ++ c.bucketName ++ "." ++ host
    else "https://" ++ host ++ "/" ++ c.bucketName

def location (c : StorageConfig) : Except StorageError BucketLocation :=
  if c.bucketName.isEmpty then .error .missingBucket
  else if c.accessKeyId.isEmpty || c.accessKeySecret.isEmpty then .error .missingAccessKey
  else if c.kind != .s3 && c.endpoint.isEmpty then .error (.missingEndpoint c.kind.id)
  else .ok {
    name := c.kind.id
    keyStart := keyPrefixOf c.basePath
    publicBase := c.publicBase
    signing := if c.signsLinks then some ⟨c.bucketAddress, c.linkLifetime⟩ else none }

end StorageConfig

namespace BucketLocation

/-- A bucket in memory, with links below an address. -/
def inMemory (publicBase basePath : String) : BucketLocation where
  name := "memory"
  keyStart := StorageConfig.keyPrefixOf basePath
  publicBase := Text.trimRight (· == '/') publicBase
  signing := none

def objectPath (l : BucketLocation) (key : String) : String :=
  ObjectPath.ofKey l.keyStart key

def publicUrl (l : BucketLocation) (path : String) : String :=
  l.publicBase ++ "/" ++ path

/-- The octets that are escaped in the path of a signed link: all but letters,
digits, slashes and four marks. -/
def isEscapedInSignedPath (b : UInt8) : Bool :=
  !(Char.ofNat b.toNat).isAlphanum && !([0x2D, 0x2E, 0x2F, 0x5F, 0x7E].contains b)

/-- A signed link without its signature. -/
def signedUrl? (signing : LinkSigning) (path : String) (lifetime : Nat) : Option String :=
  (Url.parse? (signing.address ++ "/" ++ Text.Percent.encode isEscapedInSignedPath path)).map
    fun url => url.text ++ "?X-Amz-Expires=" ++ Text.natText lifetime

def link (l : BucketLocation) (key : String) (lifetime : Option Nat) :
    Except StorageError String :=
  let path := l.objectPath key
  match l.signing with
  | none => .ok (l.publicUrl path)
  | some signing =>
    match signedUrl? signing path (lifetime.getD signing.lifetime) with
    | some url => .ok url
    | none => .error (.bucket .refused)

end BucketLocation

/-- Object storage: the bucket, whether finished videos are copied to it, and
the domain that serves them to clients. -/
structure Storage where
  location : BucketLocation
  autoUpload : Bool
  redirectDomain : Option String
deriving DecidableEq, Repr

namespace Storage

/-- The storage that a configuration describes, if it is switched on. -/
def ofConfig (c : StorageConfig) : Except StorageError (Option Storage) :=
  if c.enabled then c.location.map fun location => some ⟨location, c.autoUpload, c.domain⟩
  else .ok none

end Storage

end VideoGateway

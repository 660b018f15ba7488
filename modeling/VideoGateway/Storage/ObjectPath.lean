import VideoGateway.Storage.Config
import VideoGateway.Text.Percent
import VideoGateway.Time.Instant

/-!
# Names of stored objects

A key is a text with slashes; the object that it denotes is given by the parts
between the slashes that are not empty, each in an escaped form without dots
that could lead elsewhere. The key of a video is made of its day, the id of its
task and an extension.
-/
namespace VideoGateway

namespace ObjectPath

/-- The octets that are escaped in a part of an object path. -/
def isEscaped (b : UInt8) : Bool :=
  b < 0x20 || 0x7E ≤ b ||
    [0x22, 0x23, 0x25, 0x2A, 0x3C, 0x3E, 0x3F, 0x5B, 0x5C, 0x5D, 0x5E, 0x60, 0x7B, 0x7C,
      0x7D].contains b

/-- A part of an object path. Dots alone are escaped, since they could lead to
another place. -/
def escapePart (part : List Char) : String :=
  if part = ['.'] then "%2E"
  else if part = ['.', '.'] then "%2E%2E"
  else Text.Percent.encode isEscaped (String.ofList part)

/-- The parts of a key that are not empty. -/
def parts (key : String) : List (List Char) :=
  (Text.splitAll '/' key.toList).filter fun part => !part.isEmpty

/-- The object path of a key below the beginning of all keys. -/
def ofKey (start key : String) : String :=
  "/".intercalate ((parts (start ++ Text.trimLeft (· == '/') key)).map escapePart)

end ObjectPath

namespace VideoKey

/-- The part of an address that names the file: what follows the last slash of
the path. The host does not belong to the path. -/
def fileName (url : String) : List Char :=
  let place := url.toList.takeWhile fun c => c != '?' && c != '#'
  let path :=
    match Text.afterFirst? "://".toList place with
    | none => place
    | some rest => (rest.dropWhile (· != '/')).drop 1
  (path.reverse.takeWhile (· != '/')).reverse

/-- The extension of a file name, with its dot. A name that begins with its only
dot, or ends with a dot, has none. -/
def extension? (name : List Char) : Option String :=
  match Text.cutAt? '.' name.reverse with
  | none => none
  | some (back, front) =>
    if back.isEmpty || front.isEmpty then none else some (String.ofList ('.' :: back.reverse))

/-- The extension of a video: that of its address, or that of its content type. -/
def extension (url contentType : String) : String :=
  match extension? (fileName url) with
  | some extension => extension
  | none =>
    if Text.hasPart "webm" (Text.lower contentType) then ".webm" else ".mp4"

/-- The content type without its parameters. -/
def mediaType (contentType : String) : String :=
  let plain := Text.trim (String.ofList (contentType.toList.takeWhile (· != ';')))
  if plain.isEmpty then "video/mp4" else plain

def make (taskId extension : String) (now : Instant) : String :=
  now.date.path ++ "/" ++ taskId ++ extension

end VideoKey

end VideoGateway

import VideoGateway.Url.Basic
import VideoGateway.Url.Host

/-!
# Reading addresses

An address is read from left to right: the scheme, the credentials and the host,
the path, the query, the fragment. Blanks around it and line breaks within it
do not count, and a backslash separates like a slash. A path has no dot
segments. A reference is read against the address it occurs at.
-/
namespace VideoGateway.Url

/-- The characters of an address that count. -/
def significant (s : String) : List Char :=
  (Text.dropBoth (fun c => c.toNat ≤ 0x20) s.toList).filter fun c =>
    !(c = '\t' || c = '\n' || c = '\r')

def isSlash (c : Char) : Bool :=
  c = '/' || c = '\\'

/-- The end of the part that names the host. -/
def endsAuthority (c : Char) : Bool :=
  isSlash c || c = '?' || c = '#'

/-- The scheme in small letters, and what follows its colon. -/
def scheme? (cs : List Char) : Option (String × List Char) :=
  match Text.cutAt? ':' cs with
  | some (c :: cs, rest) =>
    if c.isAlpha && cs.all fun c => c.isAlphanum || ['+', '-', '.'].contains c then
      some (String.ofList ((c :: cs).map Text.lowerChar), rest)
    else none
  | _ => none

/-- The number of a port; no digits stand for the implied one. -/
def port? (scheme : String) (cs : List Char) : Option (Option Nat) :=
  if !cs.all Char.isDigit then none
  else if cs.isEmpty then some none
  else
    let n := Nat.ofDigitChars 10 cs 0
    if 65535 < n then none
    else some (if impliedPorts.lookup scheme == some n then none else some n)

/-- The host and what follows the colon after it. A colon between brackets does
not end the host. -/
def splitHost : (bracketed : Bool) → List Char → List Char × List Char
  | _, [] => ([], [])
  | bracketed, c :: cs =>
    if c = ':' && !bracketed then ([], cs)
    else
      let (host, port) := splitHost (if c = '[' then true else if c = ']' then false else bracketed) cs
      (c :: host, port)

/-- Applies one path segment to the segments so far, which are in reverse. A
last segment that is dots leaves an empty one. -/
def pushSegment (isLast : Bool) (done : List String) (segment : List Char) : List String :=
  let folded := segment.map Text.lowerChar
  let plain := String.ofList folded
  if [".", "%2e"].contains plain then
    if isLast then "" :: done else done
  else if ["..", ".%2e", "%2e.", "%2e%2e"].contains plain then
    if isLast then "" :: done.tail else done.tail
  else Text.Percent.encode isEscapedInPath (String.ofList segment) :: done

/-- The segments of a path, applied to segments in reverse. -/
def pushSegments (done : List String) : List (List Char) → List String
  | [] => done
  | [segment] => pushSegment true done segment
  | segment :: segments => pushSegments (pushSegment false done segment) segments

/-- The parts between slashes of either kind. -/
def segments (cs : List Char) : List (List Char) :=
  Text.splitAll '/' (cs.map fun c => if c = '\\' then '/' else c)

/-- The text before a mark and, if the mark is there, what follows it. -/
def cutTail (mark : Char) (cs : List Char) : List Char × Option (List Char) :=
  match Text.cutAt? mark cs with
  | none => (cs, none)
  | some (front, back) => (front, some back)

def escapeQuery (cs : List Char) : String :=
  Text.Percent.encode isEscapedInQuery (String.ofList cs)

def escapeFragment (cs : List Char) : String :=
  Text.Percent.encode isEscapedInFragment (String.ofList cs)

/-- Replaces path, query and fragment by those of a text that begins after the
host, or after the segments to keep, which are in reverse. -/
def withTail (u : Url) (kept : List String) (cs : List Char) : Url :=
  let (cs, fragment) := cutTail '#' cs
  let (path, query) := cutTail '?' cs
  { u with
    path := (pushSegments kept (segments path)).reverse
    query := query.map escapeQuery
    fragment := fragment.map escapeFragment }

/-- The address without the slash that begins its path. -/
def dropSlash : List Char → List Char
  | c :: cs => if isSlash c then cs else c :: cs
  | [] => []

def afterSlashes? (scheme : String) (cs : List Char) : Option Url :=
  let authority := cs.takeWhile fun c => !endsAuthority c
  let tail := cs.dropWhile fun c => !endsAuthority c
  let (credentials, place) :=
    match Text.cutAt? '@' authority.reverse with
    | none => ([], authority)
    | some (place, credentials) => (credentials.reverse, place.reverse)
  let (user, password) := cutTail ':' credentials
  let (hostText, portText) := splitHost false place
  match host? hostText, port? scheme portText with
  | some host, some port =>
    let escape (cs : List Char) := Text.Percent.encode isEscapedInUser (String.ofList cs)
    let bare : Url :=
      ⟨scheme, escape user, escape (password.getD []), host, port, [], none, none⟩
    some (bare.withTail [] (dropSlash tail))
  | _, _ => none

def parse? (s : String) : Option Url :=
  match scheme? (significant s) with
  | none => none
  | some (scheme, rest) =>
    if (impliedPorts.lookup scheme).isSome then afterSlashes? scheme (rest.dropWhile isSlash)
    else none

/-- Reads a reference at an address: another address, another host, another
path, or another end of the path. -/
def join? (u : Url) (reference : String) : Option Url :=
  let cs := significant reference
  match scheme? cs with
  | some (scheme, rest) =>
    if scheme == u.scheme && !(rest.take 1).all isSlash then relative rest
    else parse? reference
  | none => relative cs
where
  /-- A reference without a scheme. -/
  relative (cs : List Char) : Option Url :=
    match cs with
    | [] => some { u with fragment := none }
    | '#' :: rest => some { u with fragment := some (escapeFragment rest) }
    | '?' :: rest =>
      let (query, fragment) := cutTail '#' rest
      some { u with query := some (escapeQuery query), fragment := fragment.map escapeFragment }
    | c :: cs =>
      if isSlash c then
        if (cs.take 1).any isSlash then afterSlashes? u.scheme (cs.dropWhile isSlash)
        else some (u.withTail [] cs)
      else some (u.withTail u.path.reverse.tail (c :: cs))

end VideoGateway.Url

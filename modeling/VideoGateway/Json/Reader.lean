import VideoGateway.Json.Document
import VideoGateway.Json.Token

/-!
# Reading JSON texts

The document at the front of a byte sequence is read token by token. The
containers that are still open are kept on a stack, so the text may nest to any
depth. Where the text stops being JSON, the open containers are given as they
stand, unclosed; a text that is JSON gives a document that is intact.
-/
namespace VideoGateway.Document

open Json (Token)

/-- An open container around the value that is read next; `done` holds its parts
read so far, last one first. -/
inductive Frame where
  | item (done : List Document)
  | member (done : List (Option String × Document)) (key : Option String)

/-- What is read next: a value, or the continuation of a container. -/
inductive Expected where
  | value
  | firstItem
  | afterItem (done : List Document)
  | firstKey
  | nextKey (done : List (Option String × Document))
  | colon (done : List (Option String × Document)) (key : Option String)
  | afterMember (done : List (Option String × Document))

/-- Puts a value into the open containers and leaves them unclosed. -/
def abandon : List Frame → Document → Document
  | [], d => d
  | .item done :: stack, d => abandon stack (.array (d :: done).reverse false)
  | .member done key :: stack, d => abandon stack (.object ((key, d) :: done).reverse false)

/-- The document of a text that breaks off here. -/
def broken (stack : List Frame) : Expected → Document
  | .value => abandon stack .torn
  | .firstItem => abandon stack (.array [] false)
  | .afterItem done => abandon stack (.array done.reverse false)
  | .firstKey => abandon stack (.object [] false)
  | .nextKey done => abandon stack (.object done.reverse false)
  | .colon done key => abandon (.member done key :: stack) .torn
  | .afterMember done => abandon stack (.object done.reverse false)

/-- What a token leads to: more to read, or a finished document. -/
inductive Next where
  | go (stack : List Frame) (expected : Expected)
  | stop (d : Document)

/-- A value is complete: the innermost container goes on. -/
def complete : List Frame → Document → Next
  | [], d => .stop d
  | .item done :: stack, d => .go stack (.afterItem (d :: done))
  | .member done key :: stack, d => .go stack (.afterMember ((key, d) :: done))

def beginValue (stack : List Frame) : Token → Next
  | .null => complete stack .null
  | .bool b => complete stack (.bool b)
  | .number n => complete stack (.number n)
  | .string s => complete stack (.string s)
  | .openBracket => .go stack .firstItem
  | .openBrace => .go stack .firstKey
  | _ => .stop (broken stack .value)

def advance (stack : List Frame) : Expected → Token → Next
  | .value, t => beginValue stack t
  | .firstItem, .closeBracket => complete stack (.array [] true)
  | .firstItem, t => beginValue (.item [] :: stack) t
  | .afterItem done, .comma => .go (.item done :: stack) .value
  | .afterItem done, .closeBracket => complete stack (.array done.reverse true)
  | .firstKey, .closeBrace => complete stack (.object [] true)
  | .firstKey, .string key => .go stack (.colon [] key)
  | .nextKey done, .string key => .go stack (.colon done key)
  | .colon done key, .colon => .go (.member done key :: stack) .value
  | .afterMember done, .comma => .go stack (.nextKey done)
  | .afterMember done, .closeBrace => complete stack (.object done.reverse true)
  | expected, _ => .stop (broken stack expected)

/-- Reads on from a place in the text, up to the end of the outermost value. -/
def readFrom (stack : List Frame) (expected : Expected) (input : Bytes) : Document × Bytes :=
  match h : Token.read? input with
  | none => (broken stack expected, input)
  | some (token, rest) =>
    have := Token.read?_length h
    match advance stack expected token with
    | .stop d => (d, rest)
    | .go stack expected => readFrom stack expected rest
termination_by input.length

/-- The document at the front of a text, and what follows it. -/
def read (text : Bytes) : Document × Bytes :=
  readFrom [] .value text

/-- The document of a text that holds nothing else. When more than blanks follow
it, the text is not JSON. -/
def ofText (text : Bytes) : Document × Bool :=
  let (d, rest) := read text
  (d, rest.all Token.isBlank)

end VideoGateway.Document

namespace VideoGateway.Json

/-- The value that a text stands for, if it is JSON within the limits. -/
def parse? (text : Bytes) : Option Json :=
  let (d, alone) := Document.ofText text
  if alone then d.toJson? Document.depthLimit else none

end VideoGateway.Json

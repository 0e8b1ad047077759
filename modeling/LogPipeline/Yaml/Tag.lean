import LogPipeline.Text.Utf8

namespace LogPipeline

namespace Yaml

/-!
# Tags

A tag is a row of bytes, since a document can spell each byte of a tag by its
number.  Nothing makes these bytes a text, and a zero byte ends the part of the
tag in which it stands.
-/

/-- A tag by its bytes. -/
structure Tag where
  bytes : List UInt8
deriving DecidableEq

namespace Tag

def bytesOf (letters : List Char) : List UInt8 :=
  letters.flatMap String.utf8EncodeChar

def untilZero (bytes : List UInt8) : List UInt8 :=
  bytes.takeWhile (· ≠ 0)

def ofParts (leading suffix : List UInt8) : Tag where
  bytes := untilZero leading ++ untilZero suffix

/-- What the handle of the tags for the kinds of scalar stands for. -/
def kindLeading : List UInt8 :=
  bytesOf "tag:yaml.org,2002:".toList

/-- The tag that asks for a kind of scalar. -/
def forKind (kind : String) : Tag where
  bytes := kindLeading ++ bytesOf kind.toList

def mark : UInt8 := 0x21

def isMarked (tag : Tag) : Bool :=
  tag.bytes.head? = some mark

/-- Whether a tag names a kind that the document defines for itself: it begins
with an exclamation mark and is a text. -/
def isLocal (tag : Tag) : Bool :=
  tag.isMarked && Utf8.isText tag.bytes

/-- Bytes without the mark in front, unless nothing else is left. -/
def withoutMark (bytes : List UInt8) : List UInt8 :=
  match bytes with
  | first :: second :: rest => if first = mark then second :: rest else bytes
  | _ => bytes

/-- What tells a tag of the document's own from another.  One mark says that
the tag is the document's own and a second one may stand before the name, so two
marks in front are left aside, each unless nothing else is left. -/
def name (tag : Tag) : List UInt8 :=
  withoutMark (withoutMark tag.bytes)

end Tag

end Yaml

end LogPipeline

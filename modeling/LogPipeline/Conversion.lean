import LogPipeline.Classic.Writer
import LogPipeline.Decoding
import LogPipeline.Text.Utf8

namespace LogPipeline

namespace Conversion

/-!
# Converting documents

A document that is read from a text or from bytes is written as classic text.
Bytes that are no text fail before anything is read, with the fault where the
bytes are at hand and without it where they come from a reader.
-/

/-- The document that bytes hold. -/
def readBytes (bytes : ByteArray) : Except Failure Document :=
  match Utf8.read bytes with
  | .ok content => Decoding.ofText content
  | .error fault => .error (.notText fault.message)

/-- The document that a reader gives as bytes. -/
def readStream (bytes : ByteArray) : Except Failure Document :=
  match Utf8.read bytes with
  | .ok content => Decoding.ofText content
  | .error _ => .error .unreadable

/-- The classic text of the document that a text holds. -/
def convert (accepts : Lua.Checker) (options : Classic.Options) (content : String) :
    Except Failure String := do
  let document ← Decoding.ofText content
  Classic.write accepts options document

/-- The classic texts of independent documents, in their order. -/
def convertAll (accepts : Lua.Checker) (options : Classic.Options) (contents : List String) :
    List (Except Failure String) :=
  contents.map (convert accepts options)

end Conversion

end LogPipeline

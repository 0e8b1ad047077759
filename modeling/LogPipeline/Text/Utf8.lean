namespace LogPipeline

namespace Utf8

/-!
# Bytes as text

Bytes are read as UTF-8.  Where they are no text, the fault names the first
byte that no character accounts for and how many bytes the damaged character
spans before the one that contradicts it; a character cut off by the end of
the bytes has no such count.
-/

/-- Where bytes stop being text. -/
structure Fault where
  /-- How many bytes before the damaged character are well formed. -/
  index : Nat
  /-- How many bytes the damaged character spans, or nothing when the bytes
  end inside it. -/
  length : Option Nat
deriving DecidableEq

def Fault.message (fault : Fault) : String :=
  match fault.length with
  | some length => s!"invalid utf-8 sequence of {length} bytes from index {fault.index}"
  | none => s!"incomplete utf-8 byte sequence from index {fault.index}"

/-- How many bytes a character has that begins with a given byte, and the
bounds of its second byte. -/
def lead? (byte : Nat) : Option (Nat × Nat × Nat) :=
  if byte < 0x80 then some (1, 0, 0)
  else if 0xC2 ≤ byte ∧ byte ≤ 0xDF then some (2, 0x80, 0xBF)
  else if byte = 0xE0 then some (3, 0xA0, 0xBF)
  else if byte = 0xED then some (3, 0x80, 0x9F)
  else if 0xE1 ≤ byte ∧ byte ≤ 0xEF then some (3, 0x80, 0xBF)
  else if byte = 0xF0 then some (4, 0x90, 0xBF)
  else if 0xF1 ≤ byte ∧ byte ≤ 0xF3 then some (4, 0x80, 0xBF)
  else if byte = 0xF4 then some (4, 0x80, 0x8F)
  else none

/-- How many of the bytes after the first belong to a character that wants a
given number of them, the first of them within bounds of its own. -/
def continued (low high : Nat) : Nat → List Nat → Nat
  | 0, _ => 0
  | _, [] => 0
  | count + 1, byte :: rest =>
    if low ≤ byte ∧ byte ≤ high then 1 + continued 0x80 0xBF count rest else 0

/-- The first fault in bytes that follow a number of well-formed ones. -/
def faultFrom? (index : Nat) (bytes : List Nat) : Option Fault :=
  match bytes with
  | [] => none
  | byte :: rest =>
    match lead? byte with
    | none => some { index := index, length := some 1 }
    | some (width, low, high) =>
      let present := continued low high (width - 1) rest
      if present = width - 1 then
        faultFrom? (index + width) (rest.drop (width - 1))
      else if present = rest.length then some { index := index, length := none }
      else some { index := index, length := some (1 + present) }
termination_by bytes.length
decreasing_by
  simp only [List.length_drop, List.length_cons]
  omega

def isText (bytes : List UInt8) : Bool :=
  (faultFrom? 0 (bytes.map UInt8.toNat)).isNone

/-- The text that bytes hold, or where they fail to be text. -/
def read (bytes : ByteArray) : Except Fault String :=
  match String.fromUTF8? bytes, faultFrom? 0 (bytes.toList.map UInt8.toNat) with
  | some content, _ => .ok content
  | none, some fault => .error fault
  | none, none => .error { index := 0, length := none }

end Utf8

end LogPipeline

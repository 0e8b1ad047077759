import LogPipeline.Number.Digits
import LogPipeline.Text.Graphic

namespace LogPipeline

namespace Shown

/-!
# Texts quoted in messages

A message shows a text between double quotes.  A character that would not be
visible, or that would end the quotation, is written with a backslash; the
ones without a letter of their own are written by their code point in braces.
-/

/-- How a character is written inside the quotation. -/
def character (letter : Char) : List Char :=
  match letter with
  | '\x00' => ['\\', '0']
  | '\t' => ['\\', 't']
  | '\n' => ['\\', 'n']
  | '\r' => ['\\', 'r']
  | '"' => ['\\', '"']
  | '\\' => ['\\', '\\']
  | other =>
    if Graphic.isGraphic other then [other]
    else '\\' :: 'u' :: '\x7b' :: (Digits.hexadecimal other.toNat ++ ['\x7d'])

def quotation (content : String) : String :=
  String.ofList ('"' :: (content.toList.flatMap character ++ ['"']))

end Shown

end LogPipeline

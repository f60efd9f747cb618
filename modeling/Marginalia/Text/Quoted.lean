import Marginalia.Text.Printable

/-!
# Quoted text

A text between double quotes, written so that every character of it can
be told: the quote and the backslash are escaped, the usual controls
have a letter, and a character that would not show by itself is written
by its code point in hexadecimal digits. An apostrophe needs no escape.
-/

namespace Marginalia.Text

/-- How a character is written inside quotes. -/
def quotedChar (c : Char) : List Char :=
  match c with
  | '\x00' => ['\\', '0']
  | '\t' => ['\\', 't']
  | '\r' => ['\\', 'r']
  | '\n' => ['\\', 'n']
  | '"' => ['\\', '"']
  | '\\' => ['\\', '\\']
  | c =>
    if isPrintable c then
      [c]
    else
      ['\\', 'u', '\x7b'] ++ Nat.toDigits 16 c.toNat ++ ['\x7d']

/-- The text in double quotes. -/
def quoted (s : String) : String :=
  String.ofList ('"' :: s.toList.flatMap quotedChar ++ ['"'])

end Marginalia.Text

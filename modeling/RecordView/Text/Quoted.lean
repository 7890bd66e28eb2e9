import RecordView.Text.Extending
import RecordView.Text.Unprintable

/-!
# Quoted text

Text is shown between double quotes.  The quote, the backslash, the common control characters and
every character that has no glyph of its own are written as an escape, so that the quoted form is
one line of printable characters.
-/

namespace RecordView

namespace Text

/-- The code point of `c` in lower-case hexadecimal, between braces after a backslash and `u`. -/
def codeEscape (c : Char) : List Char :=
  ['\\', 'u', '\x7b'] ++ Nat.toDigits 16 c.toNat ++ ['\x7d']

/-- How one character is written inside double quotes. -/
def escape (c : Char) : List Char :=
  match c with
  | '\x00' => ['\\', '0']
  | '\t' => ['\\', 't']
  | '\n' => ['\\', 'n']
  | '\r' => ['\\', 'r']
  | '\x22' => ['\\', '\x22']
  | '\\' => ['\\', '\\']
  | c => if isExtending c || !isPrintable c then codeEscape c else [c]

/-- The text between double quotes, with escapes. -/
def quoted (text : String) : String :=
  String.ofList ('\x22' :: text.toList.flatMap escape ++ ['\x22'])

end Text

end RecordView

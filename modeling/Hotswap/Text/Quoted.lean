import Hotswap.Text.Hex
import Hotswap.Text.Unprintable
import Hotswap.Text.Combining

/-!
# Quoted text

A text between double quotes, with every character that could be mistaken on a screen spelled out:
the common controls, the quote and the backslash by a backslash form, combining and unprintable
characters by their code point.
-/

namespace Hotswap.Text

/-- The code point of `c` in hexadecimal, as an escape. -/
def codePoint (c : Char) : String :=
  "\\u\x7b" ++ hexDigits c.toNat ++ "\x7d"

/-- How one character is written inside quotes. -/
def escape (c : Char) : String :=
  if c = '\x00' then "\\0"
  else if c = '\t' then "\\t"
  else if c = '\n' then "\\n"
  else if c = '\r' then "\\r"
  else if c = '"' then "\\\""
  else if c = '\\' then "\\\\"
  else if isCombining c || isUnprintable c then codePoint c
  else c.toString

/-- The text `s` in quotes. -/
def quoted (s : String) : String :=
  "\"" ++ String.join (s.toList.map escape) ++ "\""

/-- A text that may be missing: `Some` with the quoted text, or `None`. -/
def quotedOption : Option String → String
  | none => "None"
  | some s => "Some(" ++ quoted s ++ ")"

end Hotswap.Text

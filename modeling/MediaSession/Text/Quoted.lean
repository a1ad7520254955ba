import MediaSession.Text.Shapeless
import MediaSession.Text.Basic

/-!
# Quoted texts and characters

A message shows a text that it refuses between quotes, so that blanks and control characters can be seen. The quote
around it and the backslash are preceded by a backslash; the tab, the line feed, the carriage return and the null
character have letters of their own; every other character without a shape of its own is shown by its number.
-/

namespace MediaSession.Text

/-- The lower-case hexadecimal numeral of a number. -/
def lowerHex (n : Nat) : Text := Nat.toDigits 16 n

/-- A character between two quotes of the kind `quote`. -/
def quoteChar (quote c : Char) : Text :=
  if c = '\x00' then ['\\', '0']
  else if c = '\t' then ['\\', 't']
  else if c = '\r' then ['\\', 'r']
  else if c = '\n' then ['\\', 'n']
  else if c = quote || c = '\\' then ['\\', c]
  else if isShapeless c then ['\\', 'u', '\x7b'] ++ lowerHex c.toNat ++ ['\x7d']
  else [c]

/-- A text between double quotes. -/
def quoted (t : Text) : Text := ['"'] ++ t.flatMap (quoteChar '"') ++ ['"']

/-- A single character between single quotes. -/
def quotedChar (c : Char) : Text := ['\x27'] ++ quoteChar '\x27' c ++ ['\x27']

end MediaSession.Text

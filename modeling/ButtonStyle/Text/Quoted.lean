import ButtonStyle.Text.Hidden

/-!
# Quoted texts

A text within a message stands in double quotes, and every character of it can be told from its
neighbours: quotes, backslashes and line breaks are escaped, and a character without a glyph of its
own is spelled by its code point.
-/

namespace ButtonStyle.Text

/-- A character within a quoted text. -/
def quotedChar (c : Char) : List Char :=
  if c = '\x00' then ['\\', '0']
  else if c = '\t' then ['\\', 't']
  else if c = '\n' then ['\\', 'n']
  else if c = '\r' then ['\\', 'r']
  else if c = '\\' then ['\\', '\\']
  else if c = '"' then ['\\', '"']
  else if isHidden c then ['\\', 'u', '\x7b'] ++ Nat.toDigits 16 c.toNat ++ ['\x7d']
  else [c]

/-- A text in double quotes. -/
def quoted (s : String) : String := String.ofList ('"' :: s.toList.flatMap quotedChar ++ ['"'])

end ButtonStyle.Text

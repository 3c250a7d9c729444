import ButtonStyle.Json.Literal

/-!
# JSON documents

A document keeps the members of its objects in the order in which they stand, and a key may stand
more than once.  It is written either compactly or over several lines, indented by two spaces.
-/

namespace ButtonStyle

/-- A JSON document. -/
inductive Json
  | null
  | flag (value : Bool)
  | number (literal : Json.Literal)
  | text (value : String)
  | list (items : List Json)
  | object (members : List (String × Json))

namespace Json

/-- A character within a string literal.  Only quotes, backslashes and the characters below U+0020
are escaped. -/
def textChar (c : Char) : List Char :=
  if c = '"' then ['\\', '"']
  else if c = '\\' then ['\\', '\\']
  else if c = '\x08' then ['\\', 'b']
  else if c = '\x0c' then ['\\', 'f']
  else if c = '\n' then ['\\', 'n']
  else if c = '\r' then ['\\', 'r']
  else if c = '\t' then ['\\', 't']
  else if c.toNat < 0x20 then
    ['\\', 'u', '0', '0', Nat.digitChar (c.toNat / 16), Nat.digitChar (c.toNat % 16)]
  else [c]

/-- A string literal. -/
def textChars (s : String) : List Char := '"' :: s.toList.flatMap textChar ++ ['"']

/-- The spelling of a document without members, which both layouts share. -/
def flagChars (b : Bool) : List Char := if b then "true".toList else "false".toList

/-! ### The compact layout -/

mutual

/-- The text of a document on one line without blanks. -/
def compact : Json → List Char
  | null => "null".toList
  | flag b => flagChars b
  | number l => l.chars
  | text s => textChars s
  | list [] => ['[', ']']
  | list (item :: items) => '[' :: compact item ++ compactItems items
  | object [] => ['\x7b', '\x7d']
  | object ((key, value) :: members) =>
    '\x7b' :: textChars key ++ ':' :: compact value ++ compactMembers members

/-- The items after the first, and the end of the list. -/
def compactItems : List Json → List Char
  | [] => [']']
  | item :: items => ',' :: compact item ++ compactItems items

/-- The members after the first, and the end of the object. -/
def compactMembers : List (String × Json) → List Char
  | [] => ['\x7d']
  | (key, value) :: members =>
    ',' :: textChars key ++ ':' :: compact value ++ compactMembers members

end

/-! ### The indented layout -/

/-- A new line, indented by `depth` steps. -/
def newline (depth : Nat) : List Char := '\n' :: List.replicate (2 * depth) ' '

mutual

/-- The text of a document over several lines, `depth` lists and objects standing around it. -/
def pretty (depth : Nat) : Json → List Char
  | null => "null".toList
  | flag b => flagChars b
  | number l => l.chars
  | text s => textChars s
  | list [] => ['[', ']']
  | list (item :: items) =>
    '[' :: newline (depth + 1) ++ pretty (depth + 1) item ++ prettyItems depth items
  | object [] => ['\x7b', '\x7d']
  | object ((key, value) :: members) =>
    '\x7b' :: newline (depth + 1) ++ textChars key ++ ':' :: ' ' :: pretty (depth + 1) value ++
      prettyMembers depth members

/-- The items after the first, and the end of the list. -/
def prettyItems (depth : Nat) : List Json → List Char
  | [] => newline depth ++ [']']
  | item :: items =>
    ',' :: newline (depth + 1) ++ pretty (depth + 1) item ++ prettyItems depth items

/-- The members after the first, and the end of the object. -/
def prettyMembers (depth : Nat) : List (String × Json) → List Char
  | [] => newline depth ++ ['\x7d']
  | (key, value) :: members =>
    ',' :: newline (depth + 1) ++ textChars key ++ ':' :: ' ' :: pretty (depth + 1) value ++
      prettyMembers depth members

end

/-- The text of a document in the compact layout. -/
def toCompact (d : Json) : String := String.ofList d.compact

/-- The text of a document in the indented layout. -/
def toPretty (d : Json) : String := String.ofList (d.pretty 0)

end Json

end ButtonStyle

import ButtonStyle.Digits

/-!
# JSON number literals

A literal keeps what a JSON number says apart from spellings that cannot matter: its sign, its
whole part, the digits after the point and the exponent.
-/

namespace ButtonStyle.Json

/-- A number as JSON writes it. -/
structure Literal where
  negative : Bool
  whole : Nat
  /-- The digits after the point; none stands for a literal without point. -/
  fraction : List Digit
  exponent : Option Int
deriving DecidableEq

namespace Literal

/-- A literal without point and exponent. -/
def isInteger (l : Literal) : Bool := l.fraction.isEmpty && l.exponent.isNone

/-- An exponent is written with its sign, whichever it is. -/
def exponentChars : Option Int → List Char
  | none => []
  | some (.ofNat e) => 'e' :: '+' :: Digits.chars (Digits.ofNat e)
  | some (.negSucc e) => 'e' :: '-' :: Digits.chars (Digits.ofNat (e + 1))

/-- The text of a literal. -/
def chars (l : Literal) : List Char :=
  (if l.negative then ['-'] else []) ++ Digits.chars (Digits.ofNat l.whole) ++
    (if l.fraction.isEmpty then [] else '.' :: Digits.chars l.fraction) ++
    exponentChars l.exponent

end Literal

end ButtonStyle.Json

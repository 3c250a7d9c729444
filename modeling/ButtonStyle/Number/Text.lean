import ButtonStyle.Json.Literal
import ButtonStyle.Number.Quantity
import ButtonStyle.Number.Shortest

/-!
# How numbers are written

All notations write the shortest digits.

* CSS never has an exponent or a point without digits after it, and has one zero.  A tie between two
  decimals goes up.
* JSON is positional for a first digit between `10 ^ (-5)` and `10 ^ 15` and then always has a
  fraction; it is scientific, with a signed exponent, elsewhere.  A tie goes to the even neighbour.
* The compact JSON notation writes whole numbers up to `2 ^ 53` as integers.

In CSS there are words for quantities that are no numbers; JSON has none.
-/

namespace ButtonStyle

namespace Number

/-- The CSS text of a number. -/
def css (x : Number) : String :=
  if x.isZero then "0"
  else
    let (whole, fraction) := (x.shortest .up).split
    String.ofList <|
      (if x.negative then ['-'] else []) ++ Digits.chars whole ++
        (if fraction.isEmpty then [] else '.' :: Digits.chars fraction)

/-- The JSON literal of a number. -/
def literal (x : Number) : Json.Literal :=
  let d := x.shortest .even
  if -5 ≤ d.exponent ∧ d.exponent ≤ 15 then
    let (whole, fraction) := d.split
    ⟨x.negative, Digits.value whole, if fraction.isEmpty then [.zero] else fraction, none⟩
  else ⟨x.negative, Digits.value (d.digits.take 1), d.digits.drop 1, some d.exponent⟩

/-- The JSON literal of a number, an integer if the number is whole and at most `2 ^ 53`; negative
zero is then written like zero. -/
def compactLiteral (x : Number) : Json.Literal :=
  let units := unitsOf x.magnitude
  let whole := units / unitsPerOne
  if units % unitsPerOne = 0 ∧ whole ≤ Nat.pow 2 53 then ⟨x.negative && whole != 0, whole, [], none⟩
  else x.literal

end Number

namespace Quantity

/-- The CSS text of a quantity. -/
def css : Quantity → String
  | finite x => x.css
  | infinite negative => if negative then "-inf" else "inf"
  | undefined => "NaN"

end Quantity

namespace Json.Literal

/-- The number nearest to a literal, if it is not too large. -/
def number? (l : Literal) : Option Number :=
  Number.ofDecimal? l.negative
    (l.whole * Nat.pow 10 l.fraction.length + Digits.value l.fraction)
    (l.exponent.getD 0 - l.fraction.length)

end Json.Literal

end ButtonStyle

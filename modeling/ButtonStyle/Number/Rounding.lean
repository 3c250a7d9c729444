import ButtonStyle.Number.Basic

/-!
# The nearest number

A ratio of naturals or a decimal is taken to the nearest number, a tie going to the even neighbour.
A value too large for any number has none.
-/

namespace ButtonStyle

namespace Number

/-- The whole number nearest to `num / den`; a tie goes to the even neighbour. -/
def roundRatio (num den : Nat) : Nat :=
  let whole := num / den
  let rest := num % den
  if 2 * rest < den then whole
  else if den < 2 * rest then whole + 1
  else whole + whole % 2

/-- The magnitude nearest to `num / den` units.  Below `2 ^ 53` units every whole count is a
magnitude; above, `shift` bits are rounded away, and the magnitudes of one binade follow those of
the one before. -/
def nearestMagnitude (num den : Nat) : Nat :=
  let shift := (num / den).log2 - 52
  shift * binadeSize + roundRatio num (den * Nat.pow 2 shift)

/-- The number nearest to `num / den` units, with the given sign. -/
def ofRatio? (negative : Bool) (num den : Nat) : Option Number :=
  let magnitude := nearestMagnitude num den
  if h : magnitude < limit then some ⟨negative, magnitude, h⟩ else none

/-- The number nearest to `coefficient * 10 ^ exponent`, with the given sign.  Exponents so large
or so small that the answer cannot depend on the coefficient are settled first. -/
def ofDecimal? (negative : Bool) (coefficient : Nat) (exponent : Int) : Option Number :=
  if coefficient = 0 then some (zeroOf negative)
  else if 400 < exponent then none
  else if exponent + coefficient.log2 < -400 then some (zeroOf negative)
  else match exponent with
    | .ofNat e => ofRatio? negative (coefficient * Nat.pow 10 e * unitsPerOne) 1
    | .negSucc e => ofRatio? negative (coefficient * unitsPerOne) (Nat.pow 10 (e + 1))

instance : OfScientific Number :=
  ⟨fun coefficient below exponent =>
    (ofDecimal? false coefficient (if below then -(exponent : Int) else exponent)).getD zero⟩

instance (n : Nat) : OfNat Number n := ⟨(ofDecimal? false n 0).getD zero⟩

/-- The same magnitude with the other sign. -/
instance : Neg Number := ⟨fun x => ⟨!x.negative, x.magnitude, x.finite⟩⟩

end Number

end ButtonStyle

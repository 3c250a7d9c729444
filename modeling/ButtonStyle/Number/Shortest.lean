import ButtonStyle.Digits
import ButtonStyle.Number.Rounding

/-!
# The shortest decimal

A number is written with the fewest digits that are read back as it; of two such decimals with the
same count of digits, the nearer one is taken.  Where both are equally near, the notation chooses.

The search goes over decimal grids of ever finer steps `10 ^ k`, counted in units of
`10 ^ (-324)`, and tries on each the two neighbours of the exact value.  Even the finest grid is
finer than the spacing of the subnormals, so that it always has an answer.
-/

namespace ButtonStyle

/-- A decimal in scientific form: `d.ddd * 10 ^ exponent`. -/
structure Decimal where
  /-- The digits, the first of them before the point. -/
  digits : List Digit
  /-- The power of ten of the first digit. -/
  exponent : Int
deriving DecidableEq

namespace Decimal

/-- The digits before and after the point in positional notation. -/
def split (d : Decimal) : List Digit × List Digit :=
  match d.exponent with
  | .negSucc zeros => ([.zero], List.replicate zeros .zero ++ d.digits)
  | .ofNat e =>
    if d.digits.length ≤ e + 1 then
      (d.digits ++ List.replicate (e + 1 - d.digits.length) .zero, [])
    else d.digits.splitAt (e + 1)

end Decimal

/-- Which of two whole numbers, equally near, is taken. -/
inductive Tie
  | up
  | even
deriving DecidableEq

namespace Tie

/-- The number to take, `below` or the next. -/
def choose (tie : Tie) (below : Nat) : Nat :=
  match tie with
  | up => below + 1
  | even => below + below % 2

end Tie

namespace Number

/-- How many steps of the finest grid make one. -/
def finest : Nat := Nat.pow 10 324

/-- Whether `count * 10 ^ (-324)` is read back as the given magnitude. -/
def readsBack (magnitude count : Nat) : Bool :=
  nearestMagnitude (count * unitsPerOne) finest == magnitude

/-- The neighbour of `exact`, among the multiples of `step`, whose count is `sound`: the nearer one if
both are. -/
def neighbour? (tie : Tie) (sound : Nat → Bool) (exact step : Nat) : Option Nat :=
  let below := exact / step
  match sound below, sound (below + 1) with
  | true, true => some <|
    if 2 * (exact % step) < step then below
    else if step < 2 * (exact % step) then below + 1
    else tie.choose below
  | true, false => some below
  | false, true => some (below + 1)
  | false, false => none

/-- The neighbour of a magnitude, on the grid of step `10 ^ k`, that is read back as it: the nearer
one if both are. -/
def onGrid? (tie : Tie) (magnitude k : Nat) : Option Nat :=
  neighbour? tie (fun count => readsBack magnitude (count * Nat.pow 10 k))
    (unitsOf magnitude * finest) (unitsPerOne * Nat.pow 10 k)

/-- The coarsest grid with an answer, from the step `10 ^ k` down: the count and the step. -/
def coarsest (answer? : Nat → Option Nat) : Nat → Nat × Nat
  | 0 => ((answer? 0).getD 0, 0)
  | k + 1 =>
    match answer? (k + 1) with
    | some count => (count, k + 1)
    | none => coarsest answer? k

/-- The list without its last entries that are zero. -/
def dropTrailingZeros (ds : List Digit) : List Digit := (ds.reverse.dropWhile (· = .zero)).reverse

/-- The shortest decimal that is read back as the magnitude of a number; `0` for the zeros. -/
def shortest (tie : Tie) (x : Number) : Decimal :=
  if x.isZero then ⟨[.zero], 0⟩
  else
    let first := (Digits.ofNat (unitsOf x.magnitude * finest / unitsPerOne)).length - 1
    let (count, k) := coarsest (onGrid? tie x.magnitude) first
    let ds := Digits.ofNat count
    ⟨dropTrailingZeros ds, k + ds.length - 325⟩

end Number

end ButtonStyle

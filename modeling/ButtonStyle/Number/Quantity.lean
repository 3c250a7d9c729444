import ButtonStyle.Number.Rounding

/-!
# Quantities

The lengths, angles, percentages and factors of a button need not be numbers: arithmetic on numbers
may give an infinity, and on infinities nothing at all.  A quantity is a number, an infinity of
either sign, or undefined.

What is undefined compares with nothing, not even with itself.  So `a == b` is no equivalence of
quantities, and of two quantities there may be none that is less.
-/

namespace ButtonStyle

/-- A length, an angle, a percentage or a factor. -/
inductive Quantity
  | finite (value : Number)
  | infinite (negative : Bool)
  | undefined
deriving DecidableEq

namespace Quantity

instance : Coe Number Quantity := ⟨finite⟩

instance : OfScientific Quantity :=
  ⟨fun coefficient below exponent => finite (OfScientific.ofScientific coefficient below exponent)⟩

instance (n : Nat) : OfNat Quantity n := ⟨finite (OfNat.ofNat n)⟩

/-- The same quantity with the other sign. -/
instance : Neg Quantity where
  neg
    | finite x => finite (-x)
    | infinite negative => infinite !negative
    | undefined => undefined

/-- Whether a quantity is a number. -/
def isFinite : Quantity → Bool
  | finite _ => true
  | infinite _ | undefined => false

/-- Equality by value. -/
instance : BEq Quantity where
  beq
    | finite x, finite y => x == y
    | infinite m, infinite n => m == n
    | _, _ => false

/-- Whether a quantity is less than another. -/
def less : Quantity → Quantity → Bool
  | finite x, finite y => decide (x < y)
  | finite _, infinite negative => !negative
  | infinite negative, finite _ => negative
  | infinite m, infinite n => m && !n
  | undefined, _ | _, undefined => false

instance : LT Quantity := ⟨fun a b => a.less b = true⟩

instance (a b : Quantity) : Decidable (a < b) := inferInstanceAs (Decidable (a.less b = true))

@[simp] theorem finite_beq_finite (x y : Number) : (finite x == finite y) = (x == y) := rfl

@[simp] theorem finite_lt_finite {x y : Number} : finite x < finite y ↔ x < y := decide_eq_true_iff

end Quantity

/-- The exact sum of two numbers, rounded to the nearest number, or an infinity if it is too large
for one. -/
def Number.add (a b : Number) : Quantity :=
  let units := a.units + b.units
  let negative := decide (units < 0)
  (ofRatio? negative units.natAbs 1).elim (.infinite negative) .finite

/-- The sum of two quantities.  Infinities of different signs have none. -/
def Quantity.add : Quantity → Quantity → Quantity
  | finite x, finite y => x.add y
  | finite _, infinite negative => infinite negative
  | infinite negative, finite _ => infinite negative
  | infinite m, infinite n => if m = n then infinite m else undefined
  | undefined, _ | _, undefined => undefined

end ButtonStyle

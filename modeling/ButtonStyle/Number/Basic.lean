/-!
# Numbers

Numbers are the finite binary floating-point numbers with 53 significant bits, which are those that
a document can hold.  A number is kept as a sign and a magnitude, the magnitude being its place in
the increasing list of all finite magnitudes: `0` is zero, `1` the least subnormal, and so on.

Every such number is a whole multiple of the least subnormal `2 ^ (-1074)`, so `units`, the count
of these, is its exact value, and comparing or adding numbers is integer arithmetic on it.

There are two notions of equality.  `a = b` says that `a` and `b` are the same number with the same
sign; `a == b` says that they have the same value, so that the two zeros agree.
-/

namespace ButtonStyle

/-- How many magnitudes a binade has. -/
def Number.binadeSize : Nat := Nat.pow 2 52

/-- The least number that is no magnitude: there infinity would be. -/
def Number.limit : Nat := 2047 * Number.binadeSize

/-- A finite binary floating-point number. -/
structure Number where
  /-- Whether the sign is minus; a zero has a sign too. -/
  negative : Bool
  /-- The place among all finite magnitudes. -/
  magnitude : Nat
  finite : magnitude < Number.limit
deriving DecidableEq

namespace Number

/-- How many units make the number one. -/
def unitsPerOne : Nat := Nat.pow 2 1074

/-- A magnitude as a count of least subnormals: the high bits choose the binade, the low 52 bits
the place in it. -/
def unitsOf (magnitude : Nat) : Nat :=
  let binade := magnitude / binadeSize
  let place := magnitude % binadeSize
  if binade = 0 then place else (binadeSize + place) * Nat.pow 2 (binade - 1)

/-- The exact value of a number, counted in least subnormals. -/
def units (x : Number) : Int :=
  if x.negative then -(unitsOf x.magnitude : Int) else (unitsOf x.magnitude : Int)

/-- Equality by value: the two zeros are equal. -/
instance : BEq Number := ⟨fun a b => a.units == b.units⟩

instance : LT Number := ⟨fun a b => a.units < b.units⟩

instance (a b : Number) : Decidable (a < b) := inferInstanceAs (Decidable (a.units < b.units))

theorem beq_iff {a b : Number} : (a == b) = true ↔ a.units = b.units := by
  simp [BEq.beq]

theorem lt_iff {a b : Number} : a < b ↔ a.units < b.units := Iff.rfl

/-- The zero of a sign. -/
def zeroOf (negative : Bool) : Number := ⟨negative, 0, by decide⟩

/-- Positive zero. -/
def zero : Number := zeroOf false

instance : Inhabited Number := ⟨zero⟩

/-- Whether the value is zero, whatever the sign. -/
def isZero (x : Number) : Bool := x.magnitude == 0

end Number

end ButtonStyle

import ButtonStyle.Number.Quantity
import ButtonStyle.Shape.Basic

/-!
# Fills

The surface of a button is filled with one color or with a gradient.
-/

namespace ButtonStyle

/-- How the colors of a gradient run. -/
inductive GradientKind
  | linear
  | radial
  | conic
deriving DecidableEq

instance : Named GradientKind where
  all := [.linear, .radial, .conic]
  name
    | .linear => "linear"
    | .radial => "radial"
    | .conic => "conic"

/-- A color of a gradient. -/
structure Stop where
  color : String
  /-- The place along the gradient, in percent. -/
  position : Quantity
  opacity : Quantity
deriving BEq

/-- A gradient.  Its stops keep their order, whatever their places. -/
structure Gradient where
  kind : GradientKind
  /-- In degrees; of no effect for a radial gradient. -/
  angle : Quantity
  stops : List Stop
deriving BEq

/-- The gradient that a new gradient fill begins with. -/
def Gradient.initial : Gradient where
  kind := .linear
  angle := 135
  stops := [⟨"#18181b", 0, 1⟩, ⟨"#27272a", 100, 1⟩]

/-- The filling of a surface. -/
inductive Fill
  | solid (color : String)
  | gradient (gradient : Gradient)
deriving BEq

/-- The two kinds of fill. -/
inductive FillKind
  | solid
  | gradient
deriving DecidableEq

namespace Fill

/-- The kind of a fill. -/
def kind : Fill → FillKind
  | solid _ => .solid
  | gradient _ => .gradient

/-- The color of a solid fill, and of a gradient its first color; black if it has none. -/
def toSolid : Fill → Fill
  | solid color => solid color
  | gradient g => solid ((g.stops.head?.map Stop.color).getD "#000000")

/-- A gradient as it is, and the initial gradient for a color. -/
def toGradient : Fill → Fill
  | solid _ => gradient .initial
  | gradient g => gradient g

/-- A fill of the given kind.  What the other kind held is lost. -/
def converted (kind : FillKind) (fill : Fill) : Fill :=
  match kind with
  | .solid => fill.toSolid
  | .gradient => fill.toGradient

@[simp] theorem kind_converted (kind : FillKind) (fill : Fill) :
    (fill.converted kind).kind = kind := by
  cases kind <;> cases fill <;> rfl

end Fill

end ButtonStyle

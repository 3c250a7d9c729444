import ButtonStyle.Number.Quantity
import ButtonStyle.Shape.Basic

/-!
# Layout

The box of a button: its padding, width, corners and border.  Lengths are in pixels.
-/

namespace ButtonStyle

/-- A length for each side of a box. -/
structure Sides where
  top : Quantity
  right : Quantity
  bottom : Quantity
  left : Quantity
deriving BEq

namespace Sides

/-- The same length on every side. -/
def all (x : Quantity) : Sides := ⟨x, x, x, x⟩

/-- Whether opposite sides have equal lengths. -/
def pairsEqual (s : Sides) : Bool := s.top == s.bottom && s.left == s.right

/-- Whether all sides have equal lengths. -/
def allEqual (s : Sides) : Bool := s.top == s.bottom && s.left == s.right && s.top == s.left

end Sides

/-- A side of a box. -/
inductive Side
  | top
  | right
  | bottom
  | left
deriving DecidableEq

/-- A length for each corner of a box. -/
structure Corners where
  topLeft : Quantity
  topRight : Quantity
  bottomRight : Quantity
  bottomLeft : Quantity
deriving BEq

namespace Corners

/-- The same length at every corner. -/
def all (x : Quantity) : Corners := ⟨x, x, x, x⟩

/-- Whether all corners have equal lengths. -/
def allEqual (c : Corners) : Bool :=
  c.topLeft == c.topRight && c.topLeft == c.bottomRight && c.topLeft == c.bottomLeft

end Corners

/-- A corner of a box. -/
inductive Corner
  | topLeft
  | topRight
  | bottomRight
  | bottomLeft
deriving DecidableEq

/-- How the width of a button is found. -/
inductive WidthMode
  | auto
  | full
  | fixed
deriving DecidableEq

instance : Named WidthMode where
  all := [.auto, .full, .fixed]
  name
    | .auto => "auto"
    | .full => "full"
    | .fixed => "fixed"

/-- The line of a border. -/
inductive BorderStyle
  | solid
  | dashed
  | dotted
  | double
  | none
deriving DecidableEq

instance : Named BorderStyle where
  all := [.solid, .dashed, .dotted, .double, .none]
  name
    | .solid => "solid"
    | .dashed => "dashed"
    | .dotted => "dotted"
    | .double => "double"
    | .none => "none"

/-- The box of a button. -/
structure Layout where
  padding : Sides
  widthMode : WidthMode
  /-- Of effect for a fixed width only. -/
  fixedWidth : Quantity
  /-- Unset unless positive. -/
  minWidth : Quantity
  /-- Unset unless positive. -/
  maxWidth : Quantity
  radius : Corners
  borderWidth : Quantity
  borderStyle : BorderStyle
deriving BEq

end ButtonStyle

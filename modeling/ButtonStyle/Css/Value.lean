import ButtonStyle.Button.Basic
import ButtonStyle.Number.Text

/-!
# CSS values

The value of each property that is made of several parts.  Parts that would change nothing are left
out, and a value without parts is `none`.
-/

namespace ButtonStyle

namespace Css

/-- The value that stands for no effect. -/
def absent : String := "none"

/-- The parts of a value, or `none` if there are no parts. -/
def joined (separator : String) (parts : List String) : String :=
  if parts.isEmpty then absent else separator.intercalate parts

/-- A length in pixels. -/
def px (x : Quantity) : String := x.css ++ "px"

/-- An angle in degrees. -/
def deg (x : Quantity) : String := x.css ++ "deg"

/-- A percentage. -/
def percent (x : Quantity) : String := x.css ++ "%"

/-- A duration in milliseconds. -/
def ms (x : Quantity) : String := x.css ++ "ms"

/-- A length in em. -/
def em (x : Quantity) : String := x.css ++ "em"

/-- A function with its argument. -/
def call (function argument : String) : String := function ++ "(" ++ argument ++ ")"

/-- A part, or nothing if it would change nothing. -/
def unlessIdentity (identity : Bool) (part : String) : List String :=
  if identity then [] else [part]

@[simp] theorem joined_nil (separator : String) : joined separator [] = absent := rfl

theorem joined_of_ne_nil (separator : String) {parts : List String} (h : parts ≠ []) :
    joined separator parts = separator.intercalate parts := by
  simp [joined, h]

theorem call_ne_absent (function argument : String) : call function argument ≠ absent := by
  intro h
  have hopen : '(' ∈ (call function argument).toList := by simp [call]
  rw [h] at hopen
  exact absurd hopen (by decide)

end Css

open Css

/-! ### Fills -/

namespace Stop

/-- A color and its place. -/
def css (s : Stop) : String := s.color ++ " " ++ percent s.position

end Stop

namespace Gradient

/-- The gradient function.  The angle of a radial gradient does not appear. -/
def css (g : Gradient) : String :=
  let stops := String.intercalate ", " (g.stops.map Stop.css)
  match g.kind with
  | .linear => call "linear-gradient" (deg g.angle ++ ", " ++ stops)
  | .radial => call "radial-gradient" ("circle at center, " ++ stops)
  | .conic => call "conic-gradient" ("from " ++ deg g.angle ++ " at 50% 50%, " ++ stops)

end Gradient

namespace Fill

/-- The value of `background`.  A color stands as it was given. -/
def css : Fill → String
  | solid color => color
  | gradient g => g.css

end Fill

/-! ### Shadows -/

namespace Shadow

/-- A layer of `box-shadow`. -/
def boxLayer (s : Shadow) : String :=
  (if s.inset then "inset " else "") ++
    px s.x ++ " " ++ px s.y ++ " " ++ px s.blur ++ " " ++ px s.spread ++ " " ++ s.color

/-- A layer of `text-shadow`, which has neither spread nor inset. -/
def textLayer (s : Shadow) : String :=
  px s.x ++ " " ++ px s.y ++ " " ++ px s.blur ++ " " ++ s.color

end Shadow

namespace Css

/-- The value of `box-shadow` for layers of shadow, of which the enabled ones show. -/
def boxShadow (shadows : List Shadow) : String :=
  joined ", " ((shadows.filter Shadow.enabled).map Shadow.boxLayer)

/-- The value of `text-shadow` for layers of shadow, of which the enabled ones show. -/
def textShadow (shadows : List Shadow) : String :=
  joined ", " ((shadows.filter Shadow.enabled).map Shadow.textLayer)

end Css

namespace Ring

/-- The color of the gap between a button and its ring. -/
def surface : String := "var(--bg-color, white)"

/-- The ring as two layers of `box-shadow`: the gap, and below it the ring with the gap. -/
def css (r : Ring) : String :=
  "0 0 0 " ++ px r.offset ++ " " ++ surface ++ ", 0 0 0 " ++ (r.width.add r.offset).css ++ "px " ++
    r.color

end Ring

namespace Look

/-- The `box-shadow` that draws the ring. -/
def ringCss (l : Look) : String :=
  match l.ring with
  | some r => if r.enabled then r.css else absent
  | none => absent

end Look

/-! ### Transforms and filters -/

namespace Tilt

/-- The parts of `transform` that turn the whole button. -/
def terms (t : Tilt) : List String :=
  unlessIdentity (!t.enabled)
    (call "perspective" (px t.perspective) ++ " " ++ call "rotateX" (deg t.tilt))

end Tilt

namespace Transform

/-- The parts of `transform` that differ from the identity. -/
def terms (t : Transform) : List String :=
  unlessIdentity (t.scale == 1) (call "scale" t.scale.css) ++
  unlessIdentity (t.translateX == 0) (call "translateX" (px t.translateX)) ++
  unlessIdentity (t.translateY == 0) (call "translateY" (px t.translateY)) ++
  unlessIdentity (t.rotate == 0) (call "rotate" (deg t.rotate)) ++
  unlessIdentity (t.skewX == 0) (call "skewX" (deg t.skewX)) ++
  unlessIdentity (t.skewY == 0) (call "skewY" (deg t.skewY))

end Transform

namespace Button

/-- The value of `transform` in a state: the turn of the whole button comes first. -/
def transformCss (b : Button) (s : State) : String :=
  joined " " (b.transform.terms ++ (b.look s).transform.terms)

end Button

namespace Filter

/-- The parts of `filter` that differ from the identity; negative blur and grayscale count as
none. -/
def terms (f : Filter) : List String :=
  unlessIdentity (!decide (0 < f.blur)) (call "blur" (px f.blur)) ++
  unlessIdentity (f.brightness == 100) (call "brightness" (percent f.brightness)) ++
  unlessIdentity (f.contrast == 100) (call "contrast" (percent f.contrast)) ++
  unlessIdentity (!decide (0 < f.grayscale)) (call "grayscale" (percent f.grayscale))

end Filter

namespace Look

/-- The value of `filter`. -/
def filterCss (l : Look) : String :=
  match l.filter with
  | some f => joined " " f.terms
  | none => absent

end Look

end ButtonStyle

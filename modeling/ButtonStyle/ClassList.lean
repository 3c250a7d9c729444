import ButtonStyle.Css.Value
import ButtonStyle.Text.Blank

/-!
# Class lists

A button as a list of utility classes.  Each class holds its value in brackets, with its blanks
replaced, so that it is one word of the list whatever the value is.
-/

namespace ButtonStyle

open Css

namespace ClassName

/-- A value in brackets, an underscore standing for each run of blanks. -/
def bracketed (value : String) : String :=
  "[" ++ String.intercalate "_" (Text.words value) ++ "]"

/-- A class of any value. -/
def valued (name value : String) : String := name ++ "-" ++ bracketed value

/-- A class of a number with its unit, in which there are no blanks. -/
def measured (name value : String) : String := name ++ "-[" ++ value ++ "]"

/-- A class for a length that counts only if it is positive. -/
def positive (name : String) (x : Quantity) : List String :=
  if 0 < x then [measured name (px x)] else []

end ClassName

open ClassName

/-! ### The button at rest -/

namespace Sides

/-- The classes for the padding: one if all sides are equal, two if opposite sides are, else
four. -/
def classes (s : Sides) : List String :=
  if s.allEqual then [measured "p" (px s.top)]
  else if s.pairsEqual then [measured "px" (px s.left), measured "py" (px s.top)]
  else
    [measured "pt" (px s.top), measured "pb" (px s.bottom), measured "pl" (px s.left),
      measured "pr" (px s.right)]

end Sides

namespace Corners

/-- The classes for the corners: one if all are equal, else four. -/
def classes (c : Corners) : List String :=
  if c.allEqual then [measured "rounded" (px c.topLeft)]
  else
    [measured "rounded-tl" (px c.topLeft), measured "rounded-tr" (px c.topRight),
      measured "rounded-br" (px c.bottomRight), measured "rounded-bl" (px c.bottomLeft)]

end Corners

namespace Layout

/-- The class for the width. -/
def widthClass (l : Layout) : String :=
  match l.widthMode with
  | .auto => "w-auto"
  | .full => "w-full"
  | .fixed => measured "w" (px l.fixedWidth)

/-- The classes for the box.  A solid border needs no class for its style. -/
def classes (l : Layout) : List String :=
  [l.widthClass] ++ positive "min-w" l.minWidth ++ positive "max-w" l.maxWidth ++
    l.padding.classes ++ l.radius.classes ++ positive "border" l.borderWidth ++
    (if l.borderStyle = .solid then [] else ["border-" ++ Named.name l.borderStyle])

end Layout

namespace Typography

/-- The classes for the lettering. -/
def classes (t : Typography) : List String :=
  [valued "font" t.fontFamily,
   measured "text" (px t.fontSize),
   valued "font" t.fontWeight,
   measured "tracking" (em t.letterSpacing),
   measured "leading" t.lineHeight.css] ++
  (if t.textTransform = .none then [] else [Named.name t.textTransform])

end Typography

namespace Effects

/-- The classes for the effects. -/
def classes (e : Effects) : List String :=
  positive "backdrop-blur" e.backdropBlur ++ positive "blur" e.bgBlur

end Effects

namespace Motion

/-- The classes for the transition. -/
def classes (m : Motion) : List String :=
  ["transition-all",
   measured "duration" (ms m.duration),
   valued "ease" m.easing,
   measured "delay" (ms m.delay)]

end Motion

/-! ### States -/

/-- How the classes for the look of a state are made. -/
structure Variant where
  state : State
  /-- What stands before each class. -/
  qualifier : String
  /-- Whether the shadow is shown. -/
  shadow : Bool
  /-- Whether the opacity is shown even if it is one. -/
  opacity : Bool
  /-- Classes that do not depend on the look. -/
  fixed : List String

namespace Variant

/-- The states that classes cover.  Focus and loading are not among them. -/
def all : List Variant :=
  [⟨.default, "", true, false, []⟩,
   ⟨.hover, "hover:", true, false, []⟩,
   ⟨.active, "active:", false, false, []⟩,
   ⟨.disabled, "disabled:", false, true, ["cursor-not-allowed"]⟩]

/-- The classes of a look before the qualifier is added. -/
def unqualified (v : Variant) (l : Look) : List String :=
  [valued "bg" l.background.css, valued "text" l.textColor, valued "border" l.borderColor] ++
  (if v.opacity || !(l.opacity == 1) then [measured "opacity" l.opacity.css] else []) ++
  (if v.shadow && !l.shadows.isEmpty then [valued "shadow" (boxShadow l.shadows)] else []) ++
  v.fixed

/-- The classes of a look. -/
def classes (v : Variant) (l : Look) : List String := (v.unqualified l).map (v.qualifier ++ ·)

end Variant

namespace Button

/-- The classes of a button. -/
def classes (b : Button) : List String :=
  b.layout.classes ++ b.typography.classes ++ b.effects.classes ++ b.motion.classes ++
    Variant.all.flatMap (fun v => v.classes (b.look v.state)) ++
    (if b.icon.enabled then ["[&_svg]:stroke-current"] else [])

/-- The classes of a button as they stand in an attribute. -/
def classList (b : Button) : String := String.intercalate " " b.classes

end Button

end ButtonStyle

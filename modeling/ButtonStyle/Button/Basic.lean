import ButtonStyle.Button.Layout
import ButtonStyle.Button.Look

/-!
# Buttons

The complete description of a button's style: its box, its lettering and icon, its effects and
motion, and its look in each state.
-/

namespace ButtonStyle

/-- The case of the letters. -/
inductive TextTransform
  | none
  | uppercase
  | lowercase
  | capitalize
deriving DecidableEq

instance : Named TextTransform where
  all := [.none, .uppercase, .lowercase, .capitalize]
  name
    | .none => "none"
    | .uppercase => "uppercase"
    | .lowercase => "lowercase"
    | .capitalize => "capitalize"

/-- The lettering of a button. -/
structure Typography where
  fontFamily : String
  /-- In pixels. -/
  fontSize : Quantity
  fontWeight : String
  /-- In em. -/
  letterSpacing : Quantity
  lineHeight : Quantity
  textTransform : TextTransform
  /-- Spread and inset are of no effect here. -/
  textShadow : List Shadow
deriving BEq

/-- The side of the lettering on which the icon stands. -/
inductive IconPosition
  | left
  | right
deriving DecidableEq

instance : Named IconPosition where
  all := [.left, .right]
  name
    | .left => "left"
    | .right => "right"

/-- The motion of an icon. -/
inductive IconAnimation
  | none
  | spin
  | pulse
  | bounce
  | ping
deriving DecidableEq

instance : Named IconAnimation where
  all := [.none, .spin, .pulse, .bounce, .ping]
  name
    | .none => "none"
    | .spin => "spin"
    | .pulse => "pulse"
    | .bounce => "bounce"
    | .ping => "ping"

/-- The icon of a button. -/
structure Icon where
  enabled : Bool
  svg : String
  position : IconPosition
  size : Quantity
  /-- The distance to the lettering. -/
  gap : Quantity
  /-- A color, or `inherit` for the color of the lettering. -/
  color : String
  animation : IconAnimation
  /-- In degrees. -/
  rotate : Quantity
deriving BEq

/-- Effects of the surface. -/
structure Effects where
  backdropBlur : Quantity
  bgBlur : Quantity
  borderGradient : Option Gradient
deriving BEq

/-- The transition between states, in milliseconds. -/
structure Motion where
  duration : Quantity
  easing : String
  delay : Quantity
deriving BEq

/-- Responses to the pointer. -/
structure Interactions where
  ripple : Bool
  magnetic : Bool
  magneticStrength : Quantity
  scaleOnPress : Quantity
deriving BEq

/-- A turn of the whole button in space. -/
structure Tilt where
  enabled : Bool
  perspective : Quantity
  /-- In degrees around the horizontal axis. -/
  tilt : Quantity
deriving BEq

/-- The style of a button. -/
structure Button where
  layout : Layout
  typography : Typography
  icon : Icon
  effects : Effects
  motion : Motion
  interactions : Interactions
  transform : Tilt
  states : Looks
deriving BEq

namespace Button

/-- The look of a button in a state. -/
def look (b : Button) (s : State) : Look := b.states.get s

end Button

end ButtonStyle

import ButtonStyle.Button.Basic

/-!
# The JSON form of buttons

The shape of each type that a button consists of.  The names of records and fields are part of the
format.
-/

namespace ButtonStyle

open Fields Presence

/-- The shape of a stop. -/
def Stop.shape : Shape Stop :=
  .record "GradientStop"
    (cons "color" .text required <|
     cons "position" .number required <|
     cons "opacity" .number required nil)
    { join := fun (color, position, opacity, ()) => ⟨color, position, opacity⟩
      split := fun s => (s.color, s.position, s.opacity, ()) }

/-- The shape of a gradient. -/
def Gradient.shape : Shape Gradient :=
  .record "Gradient"
    (cons "type" .choice required <|
     cons "angle" .number required <|
     cons "stops" (.list Stop.shape) required nil)
    { join := fun (kind, angle, stops, ()) => ⟨kind, angle, stops⟩
      split := fun g => (g.kind, g.angle, g.stops, ()) }

/-- The shape of a fill. -/
def Fill.shape : Shape Fill :=
  .union "BackgroundInfo" "solid" .text "gradient" Gradient.shape
    { join := fun
        | .inl color => .solid color
        | .inr g => .gradient g
      split := fun
        | .solid color => .inl color
        | .gradient g => .inr g
      split_join := by intro b; cases b <;> rfl }

/-- The shape of lengths for the sides of a box. -/
def Sides.shape : Shape Sides :=
  .record "Spacing"
    (cons "top" .number required <|
     cons "right" .number required <|
     cons "bottom" .number required <|
     cons "left" .number required nil)
    { join := fun (top, right, bottom, left, ()) => ⟨top, right, bottom, left⟩
      split := fun s => (s.top, s.right, s.bottom, s.left, ()) }

/-- The shape of lengths for the corners of a box. -/
def Corners.shape : Shape Corners :=
  .record "CornerRadius"
    (cons "topLeft" .number required <|
     cons "topRight" .number required <|
     cons "bottomRight" .number required <|
     cons "bottomLeft" .number required nil)
    { join := fun (topLeft, topRight, bottomRight, bottomLeft, ()) =>
        ⟨topLeft, topRight, bottomRight, bottomLeft⟩
      split := fun c => (c.topLeft, c.topRight, c.bottomRight, c.bottomLeft, ()) }

/-- The shape of the box of a button. -/
def Layout.shape : Shape Layout :=
  .record "LayoutConfig"
    (cons "padding" Sides.shape required <|
     cons "widthMode" .choice required <|
     cons "fixedWidth" .number required <|
     cons "minWidth" .number required <|
     cons "maxWidth" .number required <|
     cons "radius" Corners.shape required <|
     cons "borderWidth" .number required <|
     cons "borderStyle" .choice (filledWith .solid) nil)
    { join := fun (padding, widthMode, fixedWidth, minWidth, maxWidth, radius, borderWidth,
          borderStyle, ()) =>
        ⟨padding, widthMode, fixedWidth, minWidth, maxWidth, radius, borderWidth, borderStyle⟩
      split := fun l => (l.padding, l.widthMode, l.fixedWidth, l.minWidth, l.maxWidth, l.radius,
        l.borderWidth, l.borderStyle, ()) }

/-- The shape of a layer of shadow. -/
def Shadow.shape : Shape Shadow :=
  .record "Shadow"
    (cons "x" .number required <|
     cons "y" .number required <|
     cons "blur" .number required <|
     cons "spread" .number required <|
     cons "color" .text required <|
     cons "inset" .flag (filledWith false) <|
     cons "enabled" .flag (filledWith true) nil)
    { join := fun (x, y, blur, spread, color, inset, enabled, ()) =>
        ⟨x, y, blur, spread, color, inset, enabled⟩
      split := fun s => (s.x, s.y, s.blur, s.spread, s.color, s.inset, s.enabled, ()) }

/-- The shape of the lettering of a button. -/
def Typography.shape : Shape Typography :=
  .record "TypographyConfig"
    (cons "fontFamily" .text required <|
     cons "fontSize" .number required <|
     cons "fontWeight" .text required <|
     cons "letterSpacing" .number required <|
     cons "lineHeight" .number required <|
     cons "textTransform" .choice (filledWith .none) <|
     cons "textShadow" (.list Shadow.shape) (filledWith []) nil)
    { join := fun (fontFamily, fontSize, fontWeight, letterSpacing, lineHeight, textTransform,
          textShadow, ()) =>
        ⟨fontFamily, fontSize, fontWeight, letterSpacing, lineHeight, textTransform, textShadow⟩
      split := fun t => (t.fontFamily, t.fontSize, t.fontWeight, t.letterSpacing, t.lineHeight,
        t.textTransform, t.textShadow, ()) }

/-- The shape of an icon. -/
def Icon.shape : Shape Icon :=
  .record "IconConfig"
    (cons "enabled" .flag required <|
     cons "svg" .text required <|
     cons "position" .choice required <|
     cons "size" .number required <|
     cons "gap" .number required <|
     cons "color" .text required <|
     cons "animation" .choice required <|
     cons "rotate" .number required nil)
    { join := fun (enabled, svg, position, size, gap, color, animation, rotate, ()) =>
        ⟨enabled, svg, position, size, gap, color, animation, rotate⟩
      split := fun i => (i.enabled, i.svg, i.position, i.size, i.gap, i.color, i.animation,
        i.rotate, ()) }

/-- The shape of the effects of a surface. -/
def Effects.shape : Shape Effects :=
  .record "EffectsConfig"
    (cons "backdropBlur" .number required <|
     cons "bgBlur" .number required <|
     cons "borderGradient" (.option Gradient.shape) nullable nil)
    { join := fun (backdropBlur, bgBlur, borderGradient, ()) =>
        ⟨backdropBlur, bgBlur, borderGradient⟩
      split := fun e => (e.backdropBlur, e.bgBlur, e.borderGradient, ()) }

/-- The shape of a transition. -/
def Motion.shape : Shape Motion :=
  .record "MotionConfig"
    (cons "duration" .number required <|
     cons "easing" .text required <|
     cons "delay" .number required nil)
    { join := fun (duration, easing, delay, ()) => ⟨duration, easing, delay⟩
      split := fun m => (m.duration, m.easing, m.delay, ()) }

/-- The shape of the responses to the pointer. -/
def Interactions.shape : Shape Interactions :=
  .record "InteractionsConfig"
    (cons "ripple" .flag required <|
     cons "magnetic" .flag required <|
     cons "magneticStrength" .number required <|
     cons "scaleOnPress" .number required nil)
    { join := fun (ripple, magnetic, magneticStrength, scaleOnPress, ()) =>
        ⟨ripple, magnetic, magneticStrength, scaleOnPress⟩
      split := fun i => (i.ripple, i.magnetic, i.magneticStrength, i.scaleOnPress, ()) }

/-- The shape of a turn in space. -/
def Tilt.shape : Shape Tilt :=
  .record "Transform3D"
    (cons "enabled" .flag required <|
     cons "perspective" .number required <|
     cons "tilt" .number required nil)
    { join := fun (enabled, perspective, tilt, ()) => ⟨enabled, perspective, tilt⟩
      split := fun t => (t.enabled, t.perspective, t.tilt, ()) }

/-- The shape of a focus ring. -/
def Ring.shape : Shape Ring :=
  .record "FocusRing"
    (cons "enabled" .flag required <|
     cons "width" .number required <|
     cons "color" .text required <|
     cons "offset" .number required nil)
    { join := fun (enabled, width, color, offset, ()) => ⟨enabled, width, color, offset⟩
      split := fun r => (r.enabled, r.width, r.color, r.offset, ()) }

/-- The shape of the transform of a look. -/
def Transform.shape : Shape Transform :=
  .record "StateTransform"
    (cons "scale" .number required <|
     cons "translateY" .number required <|
     cons "translateX" .number required <|
     cons "rotate" .number required <|
     cons "skewX" .number required <|
     cons "skewY" .number required nil)
    { join := fun (scale, translateY, translateX, rotate, skewX, skewY, ()) =>
        ⟨scale, translateY, translateX, rotate, skewX, skewY⟩
      split := fun t => (t.scale, t.translateY, t.translateX, t.rotate, t.skewX, t.skewY, ()) }

/-- The shape of the filter of a look. -/
def Filter.shape : Shape Filter :=
  .record "StateFilter"
    (cons "blur" .number required <|
     cons "brightness" .number required <|
     cons "contrast" .number required <|
     cons "grayscale" .number required nil)
    { join := fun (blur, brightness, contrast, grayscale, ()) =>
        ⟨blur, brightness, contrast, grayscale⟩
      split := fun f => (f.blur, f.brightness, f.contrast, f.grayscale, ()) }

/-- The shape of a look. -/
def Look.shape : Shape Look :=
  .record "StateStyle"
    (cons "background" Fill.shape required <|
     cons "textColor" .text required <|
     cons "borderColor" .text required <|
     cons "opacity" .number required <|
     cons "cursor" .choice required <|
     cons "shadows" (.list Shadow.shape) required <|
     cons "ring" (.option Ring.shape) optional <|
     cons "transform" Transform.shape required <|
     cons "filter" (.option Filter.shape) optional nil)
    { join := fun (background, textColor, borderColor, opacity, cursor, shadows, ring, transform,
          filter, ()) =>
        ⟨background, textColor, borderColor, opacity, cursor, shadows, ring, transform, filter⟩
      split := fun l => (l.background, l.textColor, l.borderColor, l.opacity, l.cursor, l.shadows,
        l.ring, l.transform, l.filter, ()) }

/-- The shape of the looks of a button. -/
def Looks.shape : Shape Looks :=
  .record "StateStyles"
    (cons "default" Look.shape required <|
     cons "hover" Look.shape required <|
     cons "active" Look.shape required <|
     cons "focus" Look.shape required <|
     cons "disabled" Look.shape required <|
     cons "loading" Look.shape required nil)
    { join := fun (default, hover, active, focus, disabled, loading, ()) =>
        ⟨default, hover, active, focus, disabled, loading⟩
      split := fun l => (l.default, l.hover, l.active, l.focus, l.disabled, l.loading, ()) }

/-- The shape of a button. -/
def Button.shape : Shape Button :=
  .record "ButtonConfig"
    (cons "layout" Layout.shape required <|
     cons "typography" Typography.shape required <|
     cons "icon" Icon.shape required <|
     cons "effects" Effects.shape required <|
     cons "motion" Motion.shape required <|
     cons "interactions" Interactions.shape required <|
     cons "transform" Tilt.shape required <|
     cons "states" Looks.shape required nil)
    { join := fun (layout, typography, icon, effects, motion, interactions, transform, states,
          ()) =>
        ⟨layout, typography, icon, effects, motion, interactions, transform, states⟩
      split := fun b => (b.layout, b.typography, b.icon, b.effects, b.motion, b.interactions,
        b.transform, b.states, ()) }

end ButtonStyle

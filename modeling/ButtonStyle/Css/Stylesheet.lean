import ButtonStyle.Css.Rule
import ButtonStyle.Css.Value

/-!
# The stylesheet of a button

A stylesheet has a rule for the button, one for its icon, one for each state but the resting one,
and a fixed tail of animations.  What is selected is a parameter: `.btn` in a stylesheet that is
handed out, the id of an element in a preview.
-/

namespace ButtonStyle

open Css

/-- The selector of all buttons. -/
def Css.buttonSelector : String := ".btn"

/-! ### The button at rest -/

namespace Sides

/-- The four lengths of `padding`. -/
def css (s : Sides) : String :=
  px s.top ++ " " ++ px s.right ++ " " ++ px s.bottom ++ " " ++ px s.left

end Sides

namespace Corners

/-- The four lengths of `border-radius`. -/
def css (c : Corners) : String :=
  px c.topLeft ++ " " ++ px c.topRight ++ " " ++ px c.bottomRight ++ " " ++ px c.bottomLeft

end Corners

namespace Layout

/-- The value of `width`. -/
def widthCss (l : Layout) : String :=
  match l.widthMode with
  | .auto => "auto"
  | .full => "100%"
  | .fixed => px l.fixedWidth

/-- The declaration of a limit of the width, which is none unless positive. -/
def limit (property : String) (x : Quantity) : List Declaration :=
  if 0 < x then [⟨property, px x⟩] else []

/-- The declarations for the box, the border having a given color. -/
def declarations (l : Layout) (borderColor : String) : List Declaration :=
  [⟨"padding", l.padding.css⟩,
   ⟨"border-radius", l.radius.css⟩,
   ⟨"border", px l.borderWidth ++ " " ++ Named.name l.borderStyle ++ " " ++ borderColor⟩,
   ⟨"width", l.widthCss⟩] ++
  limit "min-width" l.minWidth ++
  limit "max-width" l.maxWidth

end Layout

namespace Typography

/-- The declarations for the lettering. -/
def declarations (t : Typography) : List Declaration :=
  [⟨"font-family", t.fontFamily⟩,
   ⟨"font-size", px t.fontSize⟩,
   ⟨"font-weight", t.fontWeight⟩,
   ⟨"letter-spacing", em t.letterSpacing⟩,
   ⟨"line-height", t.lineHeight.css⟩,
   ⟨"text-transform", Named.name t.textTransform⟩,
   ⟨"text-shadow", Css.textShadow t.textShadow⟩]

end Typography

namespace Effects

/-- The value of `backdrop-filter`. -/
def backdropCss (e : Effects) : String :=
  if 0 < e.backdropBlur then call "blur" (px e.backdropBlur) else absent

end Effects

namespace Motion

/-- The value of `transition`. -/
def css (m : Motion) : String := "all " ++ ms m.duration ++ " " ++ m.easing ++ " " ++ ms m.delay

end Motion

namespace Button

/-- The rule for the button at rest. -/
def restRule (base : String) (b : Button) : Rule :=
  let look := b.look .default
  { selectors := [base]
    declarations :=
      b.layout.declarations look.borderColor ++
      b.typography.declarations ++
      [⟨"background", look.background.css⟩,
       ⟨"color", look.textColor⟩,
       ⟨"box-shadow", boxShadow look.shadows⟩,
       ⟨"opacity", look.opacity.css⟩,
       ⟨"filter", look.filterCss⟩,
       ⟨"backdrop-filter", b.effects.backdropCss⟩,
       ⟨"transition", b.motion.css⟩,
       ⟨"cursor", Named.name look.cursor⟩,
       ⟨"transform", b.transformCss .default⟩,
       ⟨"display", "inline-flex"⟩,
       ⟨"align-items", "center"⟩,
       ⟨"justify-content", "center"⟩,
       ⟨"gap", px b.icon.gap⟩,
       ⟨"position", "relative"⟩,
       ⟨"overflow", "hidden"⟩,
       ⟨"user-select", "none"⟩] }

end Button

/-! ### The icon -/

namespace IconAnimation

/-- The value of `animation`, if there is a motion. -/
def css? : IconAnimation → Option String
  | none => .none
  | spin => some "spin 1s linear infinite"
  | pulse => some "pulse 2s cubic-bezier(0.4, 0, 0.6, 1) infinite"
  | bounce => some "bounce 1s infinite"
  | ping => some "ping 1s cubic-bezier(0, 0, 0.2, 1) infinite"

end IconAnimation

namespace Icon

/-- The value of `color`: an icon that inherits its color takes that of the lettering. -/
def colorCss (i : Icon) : String := if i.color = "inherit" then "currentColor" else i.color

/-- The rule for the icon. -/
def rule (base : String) (i : Icon) : Rule where
  selectors := [base ++ " svg"]
  declarations :=
    [⟨"width", px i.size⟩,
     ⟨"height", px i.size⟩,
     ⟨"color", i.colorCss⟩,
     ⟨"transition", "all 200ms ease"⟩,
     ⟨"transform", call "rotate" (deg i.rotate)⟩] ++
    (i.animation.css?.map (Declaration.mk "animation")).toList

end Icon

/-! ### The other states -/

namespace State

/-- The selectors of a state: its pseudo-class, then the class that forces it. -/
def selectors (base : String) (s : State) : List String :=
  let own := (s.pseudoClass?.map (base ++ ·)).toList ++
    (s.forcingClass?.map (base ++ "." ++ ·)).toList
  if own.isEmpty then [base] else own

/-- The name of a state in a comment. -/
def title : State → String
  | default => "Default"
  | hover => "Hover"
  | active => "Active"
  | focus => "Focus"
  | disabled => "Disabled"
  | loading => "Loading"

/-- The states that have a rule of their own. -/
def styled : List State := [.hover, .active, .focus, .disabled, .loading]

end State

namespace Button

/-- The rule for a state.  A focused button has its ring in place of its shadow. -/
def stateRule (base : String) (b : Button) (s : State) : Rule :=
  let look := b.look s
  { comment := some ("State: " ++ s.title)
    selectors := s.selectors base
    declarations :=
      (if s = .focus then [⟨"outline", "none"⟩] else []) ++
      [⟨"background", look.background.css⟩,
       ⟨"color", look.textColor⟩,
       ⟨"border-color", look.borderColor⟩,
       ⟨"box-shadow", if s = .focus then look.ringCss else boxShadow look.shadows⟩,
       ⟨"opacity", look.opacity.css⟩,
       ⟨"filter", look.filterCss⟩,
       ⟨"cursor", Named.name look.cursor⟩,
       ⟨"transform", b.transformCss s⟩] ++
      (if s = .disabled then [⟨"pointer-events", "none"⟩] else []) }

/-! ### The whole -/

/-- The rules of a stylesheet. -/
def rules (base : String) (b : Button) : List Rule :=
  b.restRule base :: b.icon.rule base :: State.styled.map (b.stateRule base)

end Button

namespace Css

/-- The animations, which every stylesheet holds whether they are used or not. -/
def animations : String :=
  "/* Keyframes */\n" ++
  "@keyframes spin \x7b from \x7b transform: rotate(0deg); \x7d " ++
    "to \x7b transform: rotate(360deg); \x7d \x7d\n" ++
  "@keyframes pulse \x7b 0%, 100% \x7b opacity: 1; \x7d 50% \x7b opacity: .5; \x7d \x7d\n" ++
  "@keyframes bounce \x7b 0%, 100% \x7b transform: translateY(-25%); " ++
    "animation-timing-function: cubic-bezier(0.8,0,1,1); \x7d " ++
    "50% \x7b transform: none; animation-timing-function: cubic-bezier(0,0,0.2,1); \x7d \x7d\n" ++
  "@keyframes ping \x7b 75%, 100% \x7b transform: scale(2); opacity: 0; \x7d \x7d\n" ++
  "\n" ++
  "/* Ripple Effect */\n" ++
  ".ripple \x7b\n" ++
  "  position: absolute;\n" ++
  "  border-radius: 50%;\n" ++
  "  transform: scale(0);\n" ++
  "  animation: ripple 600ms linear;\n" ++
  "  background-color: rgba(255, 255, 255, 0.3);\n" ++
  "  pointer-events: none;\n" ++
  "\x7d\n" ++
  "\n" ++
  "@keyframes ripple \x7b\n" ++
  "  to \x7b\n" ++
  "    transform: scale(2.5);\n" ++
  "    opacity: 0;\n" ++
  "  \x7d\n" ++
  "\x7d"

/-- Rules with a blank line after each, and the animations. -/
def sheet (rules : List Rule) : String :=
  String.join (rules.map fun r => r.css ++ "\n\n") ++ animations

end Css

namespace Button

/-- The stylesheet for the buttons that a selector selects. -/
def stylesheetFor (base : String) (b : Button) : String := Text.trim (sheet (b.rules base))

/-- The stylesheet of a button. -/
def stylesheet (b : Button) : String := b.stylesheetFor buttonSelector

end Button

end ButtonStyle

import ButtonStyle.Button.Fill

/-!
# Looks

A button has one look for each state that it can be in.  Each look is complete: none takes anything
from another.
-/

namespace ButtonStyle

/-- The states of a button. -/
inductive State
  | default
  | hover
  | active
  | focus
  | disabled
  | loading
deriving DecidableEq

instance : Named State where
  all := [.default, .hover, .active, .focus, .disabled, .loading]
  name
    | .default => "default"
    | .hover => "hover"
    | .active => "active"
    | .focus => "focus"
    | .disabled => "disabled"
    | .loading => "loading"

namespace State

/-- The pseudo-class that a browser gives a button in the state. -/
def pseudoClass? : State → Option String
  | hover => some ":hover"
  | active => some ":active"
  | focus => some ":focus-visible"
  | disabled => some ":disabled"
  | default | loading => none

/-- The class that shows the state without the button being in it. -/
def forcingClass? : State → Option String
  | default => none
  | hover => some "is-hover"
  | active => some "is-active"
  | focus => some "is-focus"
  | disabled => some "is-disabled"
  | loading => some "is-loading"

end State

/-- The pointer over a button. -/
inductive Cursor
  | default
  | pointer
  | notAllowed
  | wait
  | text
  | move
  | help
deriving DecidableEq

instance : Named Cursor where
  all := [.default, .pointer, .notAllowed, .wait, .text, .move, .help]
  name
    | .default => "default"
    | .pointer => "pointer"
    | .notAllowed => "not-allowed"
    | .wait => "wait"
    | .text => "text"
    | .move => "move"
    | .help => "help"

/-- A layer of shadow.  A layer that is not enabled keeps its place and is not shown. -/
structure Shadow where
  x : Quantity
  y : Quantity
  blur : Quantity
  spread : Quantity
  color : String
  inset : Bool
  enabled : Bool
deriving BEq

/-- An enabled outer shadow. -/
def Shadow.outer (x y blur spread : Quantity) (color : String) : Shadow :=
  ⟨x, y, blur, spread, color, false, true⟩

/-- The ring around a focused button. -/
structure Ring where
  enabled : Bool
  width : Quantity
  color : String
  /-- The gap between button and ring. -/
  offset : Quantity
deriving BEq

/-- The transform of a look. -/
structure Transform where
  scale : Quantity
  translateY : Quantity
  translateX : Quantity
  rotate : Quantity
  skewX : Quantity
  skewY : Quantity
deriving BEq

/-- The transform that changes nothing. -/
def Transform.identity : Transform := ⟨1, 0, 0, 0, 0, 0⟩

/-- The filter of a look: a blur in pixels, the rest in percent. -/
structure Filter where
  blur : Quantity
  brightness : Quantity
  contrast : Quantity
  grayscale : Quantity
deriving BEq

/-- The filter that changes nothing. -/
def Filter.identity : Filter := ⟨0, 100, 100, 0⟩

/-- How a button looks in one state. -/
structure Look where
  background : Fill
  textColor : String
  borderColor : String
  opacity : Quantity
  cursor : Cursor
  shadows : List Shadow
  ring : Option Ring
  transform : Transform
  filter : Option Filter
deriving BEq

/-- A look for each state. -/
structure Looks where
  default : Look
  hover : Look
  active : Look
  focus : Look
  disabled : Look
  loading : Look
deriving BEq

namespace Looks

/-- The look of a state. -/
def get (looks : Looks) : State → Look
  | .default => looks.default
  | .hover => looks.hover
  | .active => looks.active
  | .focus => looks.focus
  | .disabled => looks.disabled
  | .loading => looks.loading

/-- Replaces the look of a state. -/
def set (looks : Looks) (state : State) (look : Look) : Looks :=
  match state with
  | .default => { looks with default := look }
  | .hover => { looks with hover := look }
  | .active => { looks with active := look }
  | .focus => { looks with focus := look }
  | .disabled => { looks with disabled := look }
  | .loading => { looks with loading := look }

@[simp] theorem get_set_self (looks : Looks) (s : State) (look : Look) :
    (looks.set s look).get s = look := by
  cases s <;> rfl

theorem get_set_of_ne (looks : Looks) {s t : State} (look : Look) (h : t ≠ s) :
    (looks.set s look).get t = looks.get t := by
  cases s <;> cases t <;> first | rfl | exact absurd rfl h

end Looks

end ButtonStyle

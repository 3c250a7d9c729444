import ButtonStyle.Button.Basic

/-!
# The standard button

The style that a button has when nothing else is asked for.
-/

namespace ButtonStyle

/-- An arrow to the right. -/
def arrowSvg : String :=
  "<svg xmlns=\"http://www.w3.org/2000/svg\" width=\"24\" height=\"24\" viewBox=\"0 0 24 24\" " ++
  "fill=\"none\" stroke=\"currentColor\" stroke-width=\"2\" stroke-linecap=\"round\" " ++
  "stroke-linejoin=\"round\"><path d=\"M5 12h14\"/><path d=\"m12 5 7 7-7 7\"/></svg>"

/-- The faint shadow right below the standard button. -/
def Shadow.subtle : Shadow := .outer 0 1 2 0 "rgba(0,0,0,0.05)"

/-- The soft shadow of a raised button, which is also the shadow that a new layer begins with. -/
def Shadow.soft : Shadow := .outer 0 4 6 (-1) "rgba(0,0,0,0.1)"

namespace Look

/-- The look of the standard button at rest. -/
def standard : Look where
  background := .solid "#18181b"
  textColor := "#ffffff"
  borderColor := "#27272a"
  opacity := 1
  cursor := .pointer
  shadows := [.subtle]
  ring := none
  transform := .identity
  filter := some .identity

/-- The look of the standard button under the pointer. -/
def standardHover : Look :=
  { standard with
    background := .solid "#27272a"
    borderColor := "#3f3f46"
    shadows := [.subtle, .soft] }

/-- The look of the standard button while it is pressed. -/
def standardActive : Look :=
  { standard with
    background := .solid "#18181b"
    textColor := "#d4d4d8"
    shadows := []
    transform := { Transform.identity with scale := 0.98 } }

/-- The look of the standard button with the focus. -/
def standardFocus : Look :=
  { standard with ring := some ⟨true, 2, "#3b82f6", 2⟩ }

/-- The look of the standard button when it cannot be used. -/
def standardDisabled : Look :=
  { standard with
    background := .solid "#f4f4f5"
    textColor := "#a1a1aa"
    borderColor := "#e4e4e7"
    shadows := []
    opacity := 0.5
    cursor := .notAllowed }

/-- The look of the standard button while it waits for its action. -/
def standardLoading : Look :=
  { standard with
    opacity := 0.8
    cursor := .wait }

end Look

/-- The standard button. -/
def Button.standard : Button where
  layout :=
    { padding := ⟨12, 24, 12, 24⟩
      widthMode := .auto
      fixedWidth := 120
      minWidth := 0
      maxWidth := 0
      radius := .all 8
      borderWidth := 1
      borderStyle := .solid }
  typography :=
    { fontFamily := "\"Inter\", sans-serif"
      fontSize := 14
      fontWeight := "500"
      letterSpacing := 0
      lineHeight := 1.5
      textTransform := .none
      textShadow := [] }
  icon :=
    { enabled := false
      svg := arrowSvg
      position := .left
      size := 16
      gap := 8
      color := "inherit"
      animation := .none
      rotate := 0 }
  effects := ⟨0, 0, none⟩
  motion := ⟨200, "cubic-bezier(0.4, 0, 0.2, 1)", 0⟩
  interactions := ⟨true, false, 0.2, 0.95⟩
  transform := ⟨false, 1000, 0⟩
  states :=
    { default := .standard
      hover := .standardHover
      active := .standardActive
      focus := .standardFocus
      disabled := .standardDisabled
      loading := .standardLoading }

end ButtonStyle

import ButtonStyle.Button.Standard

/-!
# Edits

An edit changes one part of a button and gives a new button.
-/

namespace ButtonStyle

namespace Sides

/-- Replaces the length of one side, or of all. -/
def set (side : Option Side) (x : Quantity) (s : Sides) : Sides :=
  match side with
  | none => .all x
  | some .top => { s with top := x }
  | some .right => { s with right := x }
  | some .bottom => { s with bottom := x }
  | some .left => { s with left := x }

end Sides

namespace Corners

/-- Replaces the length of one corner, or of all. -/
def set (corner : Option Corner) (x : Quantity) (c : Corners) : Corners :=
  match corner with
  | none => .all x
  | some .topLeft => { c with topLeft := x }
  | some .topRight => { c with topRight := x }
  | some .bottomRight => { c with bottomRight := x }
  | some .bottomLeft => { c with bottomLeft := x }

end Corners

namespace Look

/-- Puts a new layer of shadow below the others. -/
def addShadow (l : Look) : Look := { l with shadows := l.shadows ++ [.soft] }

/-- Removes the layer of shadow at an index, if there is one. -/
def removeShadow (index : Nat) (l : Look) : Look := { l with shadows := l.shadows.eraseIdx index }

/-- Shows or hides the layer of shadow at an index, if there is one. -/
def enableShadow (index : Nat) (enabled : Bool) (l : Look) : Look :=
  { l with shadows := l.shadows.modify index fun s => { s with enabled := enabled } }

/-- Changes the kind of fill. -/
def convertFill (kind : FillKind) (l : Look) : Look :=
  { l with background := l.background.converted kind }

end Look

namespace Button

/-- Changes the look of one state. -/
def modifyLook (s : State) (f : Look → Look) (b : Button) : Button :=
  { b with states := b.states.set s (f (b.look s)) }

/-- Sets the padding of one side, or of all. -/
def setPadding (side : Option Side) (x : Quantity) (b : Button) : Button :=
  { b with layout := { b.layout with padding := b.layout.padding.set side x } }

/-- Sets the radius of one corner, or of all. -/
def setRadius (corner : Option Corner) (x : Quantity) (b : Button) : Button :=
  { b with layout := { b.layout with radius := b.layout.radius.set corner x } }

@[simp] theorem look_modifyLook_self (s : State) (f : Look → Look) (b : Button) :
    (b.modifyLook s f).look s = f (b.look s) := by
  simp [modifyLook, look]

theorem look_modifyLook_of_ne {s t : State} (f : Look → Look) (b : Button) (h : t ≠ s) :
    (b.modifyLook s f).look t = b.look t := by
  simp [modifyLook, look, Looks.get_set_of_ne _ _ h]

end Button

/-- An edit of a button. -/
inductive Edit
  /-- No side stands for all sides. -/
  | padding (side : Option Side) (value : Quantity)
  /-- No corner stands for all corners. -/
  | radius (corner : Option Corner) (value : Quantity)
  | addShadow (state : State)
  | removeShadow (state : State) (index : Nat)
  | enableShadow (state : State) (index : Nat) (enabled : Bool)
  | convertFill (state : State) (kind : FillKind)
deriving DecidableEq

namespace Edit

/-- Carries out an edit. -/
def apply (b : Button) : Edit → Button
  | padding side x => b.setPadding side x
  | radius corner x => b.setRadius corner x
  | addShadow s => b.modifyLook s Look.addShadow
  | removeShadow s index => b.modifyLook s (Look.removeShadow index)
  | enableShadow s index enabled => b.modifyLook s (Look.enableShadow index enabled)
  | convertFill s kind => b.modifyLook s (Look.convertFill kind)

/-- Carries out edits in their order. -/
def applyAll (b : Button) (edits : List Edit) : Button := edits.foldl apply b

end Edit

end ButtonStyle

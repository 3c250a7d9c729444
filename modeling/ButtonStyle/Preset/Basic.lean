import ButtonStyle.Button.Shapes
import ButtonStyle.Number.Text
import ButtonStyle.Shape.Reader
import ButtonStyle.Shape.Writer

/-!
# Presets

A preset is a button under a name.  A list of presets may hold a name more than once; the first
preset of the name is the one that is found.
-/

namespace ButtonStyle

/-- A named button. -/
structure Preset where
  name : String
  button : Button
deriving BEq

namespace Preset

open Fields Presence

/-- The shape of a preset. -/
def shape : Shape Preset :=
  .record "Preset"
    (cons "name" .text required <|
     cons "config" Button.shape required nil)
    { join := fun (name, button, ()) => ⟨name, button⟩
      split := fun p => (p.name, p.button, ()) }

/-- The text of a list of presets. -/
def listText (presets : List Preset) : String :=
  ((Shape.list shape).write Number.literal presets).toPretty

/-- The list of presets that a text holds. -/
def ofListText (s : String) : Except Fault (List Preset) := (Shape.list shape).ofString s

/-- The first preset of a name. -/
def find? (name : String) (presets : List Preset) : Option Preset :=
  presets.find? fun p => p.name == name

end Preset

end ButtonStyle

import ButtonStyle.Preset.Basic
import ButtonStyle.Procedure

/-!
# Preset stores

A store is a file with a list of presets, and the list as it was last read or written.  The list
changes only when the file has been read or written as a whole.
-/

namespace ButtonStyle

/-- Why presets cannot be read or saved. -/
inductive StoreFault
  | emptyName
  | unreadable (path : Path) (why : FileFault)
  | unwritable (path : Path) (why : FileFault)
  | unfitting (fault : Fault)
deriving DecidableEq

namespace StoreFault

/-- The words for a fault. -/
def message : StoreFault → String
  | emptyName => "preset name is empty"
  | unreadable path _ => "failed to read presets: " ++ path.text
  | unwritable path _ => "failed to write presets: " ++ path.text
  | unfitting _ => "failed to parse presets"

end StoreFault

/-- A store of presets. -/
structure PresetStore where
  path : Path
  presets : List Preset := []

namespace PresetStore

/-- The names of the presets, in order. -/
def names (store : PresetStore) : List String := store.presets.map Preset.name

/-- The first preset of a name. -/
def find? (store : PresetStore) (name : String) : Option Preset := Preset.find? name store.presets

/-- Reads the list of presets of a file.  A file that is not there holds none. -/
def readList (path : Path) : Procedure (Except StoreFault (List Preset)) := do
  if ← Procedure.asksHolds path then
    match ← Procedure.readText path with
    | .ok s => return (Preset.ofListText s).mapError .unfitting
    | .error why => return .error (.unreadable path why)
  else return .ok []

/-- Writes the list of presets of a file. -/
def writeList (path : Path) (presets : List Preset) : Procedure (Except StoreFault Unit) := do
  match ← Procedure.makesParents path with
  | .error why => return .error (.unwritable path why)
  | .ok () =>
    match ← Procedure.writeText path (Preset.listText presets) with
    | .error why => return .error (.unwritable path why)
    | .ok () => return .ok ()

/-- Reads the file again.  If that fails, the store stays as it is, and the fault is told. -/
def reload (store : PresetStore) : Procedure (PresetStore × Option StoreFault) := do
  match ← readList store.path with
  | .ok presets => return ({ store with presets }, none)
  | .error fault => return (store, some fault)

/-- Adds a preset to the end of the list, and writes the list. -/
def save (store : PresetStore) (name : String) (button : Button) :
    Procedure (Except StoreFault PresetStore) := do
  if name.isEmpty then return .error .emptyName
  else
    let presets := store.presets ++ [⟨name, button⟩]
    match ← writeList store.path presets with
    | .ok () => return .ok { store with presets }
    | .error fault => return .error fault

end PresetStore

end ButtonStyle

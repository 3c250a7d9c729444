import ButtonStyle.Format

/-!
# Commands

What can be asked for on the command line, and how a command line can fail to ask for anything.
-/

namespace ButtonStyle

/-- What an export is made of and where it goes. -/
structure ExportOptions where
  /-- The file of the button. -/
  input : Option String := none
  /-- The preset of the button. -/
  preset : Option String := none
  format : Option Format := none
  /-- The element that a stylesheet is scoped to. -/
  previewId : Option String := none
  /-- Whether the export goes to the clipboard instead of the output. -/
  copy : Bool := false
deriving DecidableEq

/-- A command. -/
inductive Command
  | exportButton (options : ExportOptions)
  /-- Prints the standard button. -/
  | printDefaults
  | listPresets
  /-- Saves the button of a file, or the standard button, under a name. -/
  | savePreset (name : String) (input : Option String)
deriving DecidableEq

/-- Why a command line yields no command. -/
inductive Usage
  | helpAsked
  | versionAsked
  | commandMissing
  | commandUnknown
  | argumentUnknown
  /-- An option without its value, or an empty value where that cannot be. -/
  | valueMissing
  | formatUnknown
  /-- Two options that exclude each other, or an option twice. -/
  | conflict
  /-- A value for an option that takes none. -/
  | valueNotTaken
  | nameMissing
deriving DecidableEq

end ButtonStyle

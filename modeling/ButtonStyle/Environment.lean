import ButtonStyle.Preferences
import ButtonStyle.Procedure
import ButtonStyle.Shape.Reader

/-!
# The environment

Where the files of a user are: below the configuration directory of the user, which is the hidden
directory `.config` at home unless another is named.
-/

namespace ButtonStyle

/-- The variables that tell where the files of a user are. -/
structure Environment where
  /-- The configuration directory; an empty name counts as none. -/
  configHome : Option String
  home : Option String
deriving DecidableEq

namespace Environment

/-- The configuration directory at home. -/
def homeConfig? (env : Environment) : Option Path :=
  env.home.map fun home => Path.join ⟨home⟩ ".config"

/-- The configuration directory, if it is known. -/
def configRoot? (env : Environment) : Option Path :=
  match env.configHome with
  | some directory => if directory.isEmpty then env.homeConfig? else some ⟨directory⟩
  | none => env.homeConfig?

/-- A file in the directory for buttons. -/
def file? (env : Environment) (name : String) : Option Path :=
  env.configRoot?.map fun root => (root.join "buttonsmith").join name

/-- The file of the preferences. -/
def preferencesFile? (env : Environment) : Option Path := env.file? "config.json"

/-- The file of the presets. -/
def presetsFile? (env : Environment) : Option Path := env.file? "button_presets_v2.json"

end Environment

/-- What goes wrong without stopping a program. -/
inductive Warning
  | preferencesUnread
  | presetsUnread
deriving DecidableEq

namespace Warning

/-- The words for a warning. -/
def message : Warning → String
  | preferencesUnread => "failed to read config.json; using defaults"
  | presetsUnread => "failed to load presets; keeping current list"

end Warning

namespace Preferences

/-- Reads the preferences of a file.  They are all open if there is no such file or it cannot be
used; nothing is then taken from it. -/
def load (path : Path) : Procedure (Preferences × List Warning) := do
  if ← Procedure.asksHolds path then
    match ← Procedure.readText path with
    | .ok s =>
      match shape.ofString s with
      | .ok preferences => return (preferences, [])
      | .error _ => return ({}, [.preferencesUnread])
    | .error _ => return ({}, [.preferencesUnread])
  else return ({}, [])

/-- The preferences of a user. -/
def ofEnvironment (env : Environment) : Procedure (Preferences × List Warning) :=
  match env.preferencesFile? with
  | some path => load path
  | none => return ({}, [])

end Preferences

end ButtonStyle

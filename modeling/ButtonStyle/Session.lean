import ButtonStyle.Button.Standard
import ButtonStyle.CommandLine.Basic
import ButtonStyle.Css.Scope
import ButtonStyle.Environment
import ButtonStyle.Preset.Store

/-!
# Sessions

A session carries out commands with the preferences and the presets of a user.
-/

namespace ButtonStyle

/-- Why a command is not carried out. -/
inductive Failure
  /-- Nothing tells where the files of the user are. -/
  | homeUnknown
  | store (fault : StoreFault)
  | clipboard (fault : ClipboardFault)
  | inputUnreadable (path : Path) (why : FileFault)
  | inputUnfitting (path : Path) (fault : Fault)
  | presetUnknown (name : String)
  | output (why : FileFault)
deriving DecidableEq

namespace Failure

/-- The words for a failure. -/
def message : Failure → String
  | homeUnknown => "missing HOME environment variable"
  | store fault => fault.message
  | clipboard fault => fault.message
  | inputUnreadable path _ => "failed to read button config: " ++ path.text
  | inputUnfitting path _ => "failed to parse button config: " ++ path.text
  | presetUnknown name => "no preset named '" ++ name ++ "'"
  | output _ => "failed to write output"

end Failure

/-- The preferences and presets of a user. -/
structure Session where
  preferences : Preferences
  store : PresetStore

namespace Button

/-- Reads the button of a file. -/
def load (path : Path) : Procedure (Except Failure Button) := do
  match ← Procedure.readText path with
  | .error why => return .error (.inputUnreadable path why)
  | .ok s => return (shape.ofString s).mapError (.inputUnfitting path)

end Button

namespace Session

/-- Opens the session of a user. -/
def ofEnvironment (env : Environment) : Procedure (Except Failure (Session × List Warning)) := do
  let (preferences, warnings) ← Preferences.ofEnvironment env
  match env.presetsFile? with
  | none => return .error .homeUnknown
  | some path =>
    let (store, fault?) ← PresetStore.reload { path }
    return .ok (⟨preferences, store⟩, warnings ++ fault?.toList.map fun _ => .presetsUnread)

/-- Prints a text and ends its line. -/
def printLine (s : String) : Procedure (Except Failure Unit) := do
  return (← Procedure.prints (s ++ "\n")).mapError .output

/-- Prints lines until one cannot be printed. -/
def printLines : List String → Procedure (Except Failure Unit)
  | [] => return .ok ()
  | line :: lines => do
    match ← printLine line with
    | .ok () => printLines lines
    | .error failure => return .error failure

/-- The button that an export is about: that of a file, or of a preset, or the standard button. -/
def exported (session : Session) (options : ExportOptions) : Procedure (Except Failure Button) :=
  match options.input, options.preset with
  | some path, _ => Button.load ⟨path⟩
  | none, some name =>
    match session.store.find? name with
    | some preset => return .ok preset.button
    | none => return .error (.presetUnknown name)
  | none, none => return .ok .standard

/-- The format of an export. -/
def format (session : Session) (options : ExportOptions) : Format :=
  (options.format.or session.preferences.format).getD .css

/-- The text of an export.  Only stylesheets are scoped. -/
def exportText (session : Session) (options : ExportOptions) (b : Button) : String :=
  let text := b.generate (session.format options)
  match session.format options, options.previewId.or session.preferences.previewId with
  | .css, some id => Css.scopedTo id text
  | _, _ => text

/-- Exports a button to the output or the clipboard. -/
def exportButton (session : Session) (options : ExportOptions) :
    Procedure (Except Failure Unit) := do
  match ← session.exported options with
  | .error failure => return .error failure
  | .ok b =>
    let text := session.exportText options b
    if options.copy then return (← Procedure.copies text).mapError .clipboard
    else printLine text

/-- Saves the button of a file, or the standard button, as a preset. -/
def savePreset (session : Session) (name : String) (input : Option String) :
    Procedure (Except Failure Session) := do
  match ← input.elim (return .ok .standard) (fun path => Button.load ⟨path⟩) with
  | .error failure => return .error failure
  | .ok b =>
    match ← session.store.save name b with
    | .error fault => return .error (.store fault)
    | .ok store => return .ok { session with store }

/-- Carries out a command.  The session changes only if a preset is saved. -/
def execute (session : Session) : Command → Procedure (Except Failure Session)
  | .exportButton options => do
    return (← session.exportButton options).map fun () => session
  | .printDefaults => do
    return (← printLine (Button.shape.write Number.literal .standard).toPretty).map
      fun () => session
  | .listPresets => do return (← printLines session.store.names).map fun () => session
  | .savePreset name input => session.savePreset name input

end Session

end ButtonStyle

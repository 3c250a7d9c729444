import ButtonStyle.Program

/-!
# The command line

Runs the program with the files, the environment and the output of the system.
-/

namespace ButtonStyle

namespace FileFault

/-- The fault that an error of the system is. -/
def ofError : IO.Error → FileFault
  | .noFileOrDirectory .. => .notFound
  | .alreadyExists .. => .alreadyExists
  | .permissionDenied .. => .notPermitted
  | .resourceVanished .. => .brokenPipe
  | .inappropriateType .. => .notADirectory
  | _ => .other

end FileFault

namespace Procedure

/-- Does something whose errors are faults. -/
def attempt (act : IO Unit) : IO (Except FileFault Unit) := do
  try
    act
    return .ok ()
  catch e => return .error (.ofError e)

/-- Whether the system has something at a path, be it only that it may not be opened. -/
def holdsIO (p : Path) : IO Bool := do
  try
    let _ ← IO.FS.Handle.mk p.text .read
    return true
  catch
    | .noFileOrDirectory .. | .inappropriateType .. => return false
    | _ => return true

/-- Carries out a procedure.  No other program is started, so that nothing gets to the
clipboard. -/
def perform {α : Type} : Procedure α → IO α
  | done a => return a
  | holds p next => do (next (← holdsIO p)).perform
  | read p next => do
    let content ← try
        let bytes ← IO.FS.readBinFile p.text
        pure (Except.ok bytes)
      catch e => pure (Except.error (FileFault.ofError e))
    (next content).perform
  | makeParents p next => do
    let directory := p.parent
    let made ← if directory.text.isEmpty then pure (Except.ok ())
      else attempt (IO.FS.createDirAll directory.text)
    (next made).perform
  | write p content next => do
    (next (← attempt (IO.FS.writeBinFile p.text content))).perform
  | print s next => do
    (next (← attempt (do IO.print s; (← IO.getStdout).flush))).perform
  | copy _ next => (next (Clipboard.outcome Clipboard.helper (.notStarted .other))).perform

end Procedure

namespace Usage

/-- How the program is used. -/
def summary : String :=
  "Usage: buttonsmith <COMMAND>\n\n" ++
  "Commands:\n" ++
  "  export        Write a button as a stylesheet, a list of classes or design tokens\n" ++
  "  defaults      Write the standard button as JSON\n" ++
  "  presets list  List the names of the presets\n" ++
  "  presets save  Save a button as a preset\n"

end Usage

end ButtonStyle

open ButtonStyle in
/-- Runs the program. -/
def main (arguments : List String) : IO UInt32 := do
  let env : Environment := ⟨← IO.getEnv "XDG_CONFIG_HOME", ← IO.getEnv "HOME"⟩
  let report ← (Program.run env arguments).perform
  for warning in report.warnings do
    IO.eprintln ("WARN " ++ warning.message)
  match report.usage with
  | some .versionAsked | none => pure ()
  | some .helpAsked => IO.print Usage.summary
  | some _ => IO.eprint Usage.summary
  match report.errorLine? with
  | some line => IO.eprintln line
  | none => pure ()
  return UInt32.ofNat report.exit

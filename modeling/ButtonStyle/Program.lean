import ButtonStyle.CommandLine.Parser
import ButtonStyle.Session

/-!
# The program

One run of the program: its command line is read, a session is opened, and the command is carried
out.
-/

namespace ButtonStyle

/-- How a run of the program ended. -/
structure Report where
  exit : Nat
  failure : Option Failure := none
  /-- Why there was no command, if there was none. -/
  usage : Option Usage := none
  warnings : List Warning := []
deriving DecidableEq

namespace Usage

/-- Asking for help or the version is no error. -/
def exit : Usage → Nat
  | helpAsked | versionAsked => 0
  | _ => 2

end Usage

namespace Report

/-- The line that tells a failure. -/
def errorLine? (report : Report) : Option String :=
  report.failure.map fun failure => "Error: " ++ failure.message

end Report

namespace Program

/-- The name of the program and its version. -/
def version : String := "buttonsmith 0.1.0"

/-- Runs the program without a command. -/
def explain (usage : Usage) : Procedure Report := do
  if usage = .versionAsked then
    let _ ← Procedure.prints (version ++ "\n")
  return { exit := usage.exit, usage := some usage }

/-- Runs a command. -/
def perform (env : Environment) (command : Command) : Procedure Report := do
  match ← Session.ofEnvironment env with
  | .error failure => return { exit := 1, failure := some failure }
  | .ok (session, warnings) =>
    match ← session.execute command with
    | .error failure => return { exit := 1, failure := some failure, warnings }
    | .ok _ => return { exit := 0, warnings }

/-- Runs the program. -/
def run (env : Environment) (arguments : List String) : Procedure Report :=
  match Command.ofArguments arguments with
  | .ok command => perform env command
  | .error usage => explain usage

end Program

end ButtonStyle

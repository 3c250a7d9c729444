import ButtonStyle.Disk.Basic

/-!
# The clipboard

A text gets to the clipboard through a helper program, which is started with the text as its input.
-/

namespace ButtonStyle

/-- How a program ended. -/
inductive ExitStatus
  | code (code : Nat)
  | signal (signal : Nat) (dumped : Bool)
deriving DecidableEq

namespace ExitStatus

/-- The names of signals. -/
def signalNames : List (Nat × String) :=
  [(1, "SIGHUP"), (2, "SIGINT"), (3, "SIGQUIT"), (4, "SIGILL"), (5, "SIGTRAP"), (6, "SIGABRT"),
   (7, "SIGBUS"), (8, "SIGFPE"), (9, "SIGKILL"), (10, "SIGUSR1"), (11, "SIGSEGV"),
   (12, "SIGUSR2"), (13, "SIGPIPE"), (14, "SIGALRM"), (15, "SIGTERM"), (16, "SIGSTKFLT"),
   (17, "SIGCHLD"), (18, "SIGCONT"), (19, "SIGSTOP"), (20, "SIGTSTP"), (21, "SIGTTIN"),
   (22, "SIGTTOU"), (23, "SIGURG"), (24, "SIGXCPU"), (25, "SIGXFSZ"), (26, "SIGVTALRM"),
   (27, "SIGPROF"), (28, "SIGWINCH"), (29, "SIGIO" ), (30, "SIGPWR"), (31, "SIGSYS")]

/-- A description of how a program ended. -/
def describe : ExitStatus → String
  | code n => "exit status: " ++ toString n
  | signal n dumped =>
    "signal: " ++ toString n ++
      (match signalNames.lookup n with
        | some name => " (" ++ name ++ ")"
        | none => "") ++
      (if dumped then " (core dumped)" else "")

end ExitStatus

/-- What became of a helper program. -/
inductive HelperRun
  | notStarted (why : FileFault)
  /-- It would not read all of its input. -/
  | inputRefused (why : FileFault)
  | ended (status : ExitStatus)
deriving DecidableEq

/-- Why a text is not on the clipboard. -/
inductive ClipboardFault
  | notStarted (command : String) (why : FileFault)
  | inputRefused (command : String) (why : FileFault)
  | failed (command : String) (status : ExitStatus)
deriving DecidableEq

namespace ClipboardFault

/-- The words for a fault. -/
def message : ClipboardFault → String
  | notStarted command _ => "failed to run clipboard command: " ++ command
  | inputRefused command _ => "failed to write clipboard payload to " ++ command
  | failed command status => command ++ " exited with non-zero status: " ++ status.describe

end ClipboardFault

namespace Clipboard

/-- The helper program. -/
def helper : String := "wl-copy"

/-- The arguments of the helper program. -/
def arguments : List String := ["--type", "text/plain;charset=utf-8"]

/-- Whether the text is on the clipboard after a run of the helper program. -/
def outcome (command : String) : HelperRun → Except ClipboardFault Unit
  | .notStarted why => .error (.notStarted command why)
  | .inputRefused why => .error (.inputRefused command why)
  | .ended status => if status = .code 0 then .ok () else .error (.failed command status)

end Clipboard

end ButtonStyle

import ButtonStyle.Clipboard
import ButtonStyle.Disk.Basic

/-!
# Procedures

A procedure is a computation that asks the system for things: it is done with a value, or it makes
a request and goes on according to the answer.  What the answers are is left to the system, so that
one procedure can be run on real files as well as on a value that stands for them.
-/

namespace ButtonStyle

/-- A computation with requests to the system. -/
inductive Procedure (α : Type) : Type
  | done (value : α)
  /-- Is there something at a path? -/
  | holds (path : Path) (next : Bool → Procedure α)
  | read (path : Path) (next : Except FileFault ByteArray → Procedure α)
  | makeParents (path : Path) (next : Except FileFault Unit → Procedure α)
  | write (path : Path) (content : ByteArray) (next : Except FileFault Unit → Procedure α)
  | print (text : String) (next : Except FileFault Unit → Procedure α)
  | copy (text : String) (next : Except ClipboardFault Unit → Procedure α)

namespace Procedure

variable {α β σ : Type}

/-- Goes on with a second procedure where the first is done. -/
def andThen : Procedure α → (α → Procedure β) → Procedure β
  | done a, f => f a
  | holds p next, f => holds p fun r => (next r).andThen f
  | read p next, f => read p fun r => (next r).andThen f
  | makeParents p next, f => makeParents p fun r => (next r).andThen f
  | write p content next, f => write p content fun r => (next r).andThen f
  | print text next, f => print text fun r => (next r).andThen f
  | copy text next, f => copy text fun r => (next r).andThen f

instance : Monad Procedure where
  pure := done
  bind := andThen

/-! ### Single requests -/

/-- Asks whether there is something at a path. -/
def asksHolds (p : Path) : Procedure Bool := holds p done

/-- Reads the text of a file. -/
def readText (p : Path) : Procedure (Except FileFault String) :=
  read p fun
    | .ok content =>
      match String.fromUTF8? content with
      | some s => done (.ok s)
      | none => done (.error .notText)
    | .error why => done (.error why)

/-- Makes the directories in which a path ends. -/
def makesParents (p : Path) : Procedure (Except FileFault Unit) := makeParents p done

/-- Writes the text of a file. -/
def writeText (p : Path) (s : String) : Procedure (Except FileFault Unit) :=
  write p s.toUTF8 done

/-- Prints a text. -/
def prints (s : String) : Procedure (Except FileFault Unit) := print s done

/-- Puts a text on the clipboard. -/
def copies (s : String) : Procedure (Except ClipboardFault Unit) := copy s done

end Procedure

/-! ### Running procedures -/

/-- A system whose state is a value. -/
structure System (σ : Type) where
  holds : Path → σ → Bool
  read : Path → σ → Except FileFault ByteArray
  makeParents : Path → σ → Except FileFault Unit × σ
  write : Path → ByteArray → σ → Except FileFault Unit × σ
  print : String → σ → Except FileFault Unit × σ
  copy : String → σ → Except ClipboardFault Unit × σ

namespace Procedure

variable {α β σ : Type}

/-- The value of a procedure on a system, and the state after it. -/
def run (system : System σ) : Procedure α → σ → α × σ
  | done a, s => (a, s)
  | holds p next, s => (next (system.holds p s)).run system s
  | read p next, s => (next (system.read p s)).run system s
  | makeParents p next, s =>
    let (r, s) := system.makeParents p s
    (next r).run system s
  | write p content next, s =>
    let (r, s) := system.write p content s
    (next r).run system s
  | print text next, s =>
    let (r, s) := system.print text s
    (next r).run system s
  | copy text next, s =>
    let (r, s) := system.copy text s
    (next r).run system s

theorem run_bind (system : System σ) (p : Procedure α) (f : α → Procedure β) (s : σ) :
    (p >>= f).run system s =
      let (a, t) := p.run system s
      (f a).run system t := by
  show (p.andThen f).run system s = _
  induction p generalizing s with
  | done a => rfl
  | holds _ _ ih | read _ _ ih | makeParents _ _ ih | print _ _ ih | copy _ _ ih => exact ih _ _
  | write _ _ _ ih => exact ih _ _

end Procedure

/-! ### A desk -/

/-- A disk with an output and a clipboard, both of which keep what they get. -/
structure Desk where
  disk : Disk := {}
  /-- What has been printed. -/
  printed : ByteArray := .empty
  /-- How many bytes can still be printed, if there is a limit. -/
  room : Option Nat := none
  /-- What has been copied. -/
  copied : List String := []
  /-- Why nothing can be copied, if so. -/
  refusal : Option ClipboardFault := none

namespace Desk

/-- Prints as much of a text as there is room for. -/
def print (s : String) (d : Desk) : Except FileFault Unit × Desk :=
  let bytes := s.toUTF8
  match d.room with
  | none => (.ok (), { d with printed := d.printed ++ bytes })
  | some n =>
    (if bytes.size ≤ n then .ok () else .error .other,
      { d with printed := d.printed ++ bytes.extract 0 n, room := some (n - bytes.size) })

/-- Copies a text. -/
def copy (s : String) (d : Desk) : Except ClipboardFault Unit × Desk :=
  match d.refusal with
  | none => (.ok (), { d with copied := d.copied ++ [s] })
  | some why => (.error why, d)

/-- The system of a desk. -/
def system : System Desk where
  holds p d := d.disk.holds p
  read p d := d.disk.read p
  makeParents p d :=
    let (r, disk) := d.disk.makeParents p
    (r, { d with disk })
  write p content d :=
    match d.disk.write p content with
    | .ok disk => (.ok (), { d with disk })
    | .error why => (.error why, d)
  print := print
  copy := copy

end Desk

end ButtonStyle

import ButtonStyle.Disk.Path

/-!
# Disks

A disk is a tree of directories and files.  What is done with it can fail for the reasons of
`FileFault`, and then leaves it as it was; only `makeDirectories` may have made some directories
before it fails.
-/

namespace ButtonStyle

/-- Why something cannot be done with a file. -/
inductive FileFault
  | notFound
  | notADirectory
  | isADirectory
  | alreadyExists
  /-- The content is not text in UTF-8. -/
  | notText
  | notPermitted
  /-- The reader at the other end has gone. -/
  | brokenPipe
  | nameTooLong
  /-- The path holds a null character. -/
  | badName
  | other
deriving DecidableEq

/-- A file or directory. -/
inductive Node
  | file (content : ByteArray) (executable : Bool)
  | directory (entries : List (String × Node))

namespace Node

/-- What the names lead to. -/
def find? : List String → Node → Option Node
  | [], node => some node
  | name :: names, directory entries => (entries.lookup name).bind (find? names)
  | _ :: _, file _ _ => none

/-- The entries with one more, or with the one of that name replaced. -/
def putEntry (name : String) (node : Node) : List (String × Node) → List (String × Node)
  | [] => [(name, node)]
  | (key, old) :: entries =>
    if key = name then (name, node) :: entries else (key, old) :: putEntry name node entries

/-- Puts a file or directory where the names lead, with the directories on the way. -/
def put : Node → List String → Node → Node
  | _, [], new => new
  | directory entries, name :: names, new =>
    directory (putEntry name (put ((entries.lookup name).getD (directory [])) names new) entries)
  | file content executable, _ :: _, _ => file content executable

/-- Removes what the names lead to. -/
def remove : List String → Node → Node
  | [], node => node
  | [name], directory entries => directory (entries.filter fun e => e.1 ≠ name)
  | name :: names, directory entries =>
    directory (entries.map fun (key, node) =>
      if key = name then (key, remove names node) else (key, node))
  | _ :: _, file content executable => file content executable

/-- Whether a name is longer than a directory can hold. -/
def tooLong (name : String) : Bool := 255 < name.utf8ByteSize

end Node

/-- A disk; the working directory is its root. -/
structure Disk where
  root : Node := .directory []

namespace Disk

/-- Where steps lead. -/
inductive Place
  /-- To something that is there. -/
  | taken (names : List String) (node : Node)
  /-- To a name that a directory does not hold yet. -/
  | free (names : List String)

/-- Follows steps from the directory that `names` lead to. -/
def follow (d : Disk) (names : List String) : List Path.Step → Except FileFault Place
  | [] =>
    match d.root.find? names with
    | some node => .ok (.taken names node)
    | none => .error .notFound
  | step :: steps =>
    match d.root.find? names with
    | some (.directory entries) =>
      match step with
      | .here => d.follow names steps
      | .up => d.follow names.dropLast steps
      | .name name =>
        if Node.tooLong name then .error .nameTooLong
        else
          match entries.lookup name with
          | some _ => d.follow (names ++ [name]) steps
          | none => if steps.isEmpty then .ok (.free (names ++ [name])) else .error .notFound
    | some (.file _ _) => .error .notADirectory
    | none => .error .notFound

/-- Checks what can be said of a path without looking at the disk. -/
def check (p : Path) : Except FileFault Unit :=
  if p.text.toList.contains '\x00' then .error .badName
  else if p.text.isEmpty then .error .notFound
  else if 4096 ≤ p.text.utf8ByteSize then .error .nameTooLong
  else .ok ()

/-- Where a path leads. -/
def locate (d : Disk) (p : Path) : Except FileFault Place := do
  check p
  let place ← d.follow [] p.steps
  match place with
  | .taken _ (.file _ _) => if p.endsInSlash then .error .notADirectory else .ok place
  | _ => .ok place

/-! ### Looking -/

/-- Whether a path leads to something. -/
def holds (d : Disk) (p : Path) : Bool :=
  match d.locate p with
  | .ok (.taken _ _) => true
  | _ => false

/-- The content of the file that a path leads to. -/
def read (d : Disk) (p : Path) : Except FileFault ByteArray :=
  match d.locate p with
  | .ok (.taken _ (.file content _)) => .ok content
  | .ok (.taken _ (.directory _)) => .error .isADirectory
  | .ok (.free _) => .error .notFound
  | .error why => .error why

/-! ### Changing -/

/-- Makes the directory that steps lead to. -/
def makeDirectory (d : Disk) (steps : List Path.Step) : Except FileFault Disk :=
  match d.follow [] steps with
  | .ok (.taken _ _) => .error .alreadyExists
  | .ok (.free names) => .ok ⟨d.root.put names (.directory [])⟩
  | .error why => .error why

/-- Whether steps lead to a directory. -/
def isDirectory (d : Disk) (steps : List Path.Step) : Bool :=
  match d.follow [] steps with
  | .ok (.taken _ (.directory _)) => true
  | _ => false

/-- The directory that steps lead to may be there already. -/
def makeDirectoryIfMissing (d : Disk) (steps : List Path.Step) : Except FileFault Disk :=
  match d.makeDirectory steps with
  | .ok new => .ok new
  | .error why => if d.isDirectory steps then .ok d else .error why

/-- Makes the directory that steps, the last first, lead to, and those around it that are missing.
Something else in the way of the last step is met before something in the way of the others. -/
def makeDirectories (d : Disk) : List Path.Step → Except FileFault Unit × Disk
  | [] => (.ok (), d)
  | last :: before =>
    match d.makeDirectoryIfMissing (last :: before).reverse with
    | .ok new => (.ok (), new)
    | .error .notFound =>
      match d.makeDirectories before with
      | (.ok (), new) =>
        match new.makeDirectoryIfMissing (last :: before).reverse with
        | .ok newer => (.ok (), newer)
        | .error why => (.error why, new)
      | (.error why, new) => (.error why, new)
    | .error why => (.error why, d)

/-- Makes the directory in which a path ends, and those around it that are missing. -/
def makeParents (d : Disk) (p : Path) : Except FileFault Unit × Disk :=
  let bad := p.parentSteps.any fun
    | .name name => name.toList.contains '\x00'
    | _ => false
  if bad then (.error .badName, d) else d.makeDirectories p.parentSteps.reverse

/-- Why nothing can be written to a path that ends in a slash. -/
def writeToDirectoryFault (d : Disk) (p : Path) : FileFault :=
  match d.follow [] p.steps.dropLast with
  | .ok (.taken _ (.file _ _)) => .notADirectory
  | .ok (.taken _ (.directory _)) => .isADirectory
  | .ok (.free _) => .notFound
  | .error why => why

/-- Writes the content of the file that a path leads to, the file being made if it is not there. -/
def write (d : Disk) (p : Path) (content : ByteArray) : Except FileFault Disk := do
  check p
  if p.endsInSlash then .error (d.writeToDirectoryFault p)
  else
    match ← d.follow [] p.steps with
    | .taken _ (.directory _) => .error .isADirectory
    | .taken names (.file _ executable) => .ok ⟨d.root.put names (.file content executable)⟩
    | .free names => .ok ⟨d.root.put names (.file content false)⟩

/-- Removes what a path leads to; none if there is nothing. -/
def remove? (d : Disk) (p : Path) : Option Disk :=
  match d.locate p with
  | .ok (.taken names _) => some ⟨d.root.remove names⟩
  | _ => none

end Disk

end ButtonStyle

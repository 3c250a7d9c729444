/-!
# Paths

A path leads from the working directory to a file or directory, step by step.
-/

namespace ButtonStyle

/-- A path, as it was given. -/
structure Path where
  text : String
deriving DecidableEq

namespace Path

/-- A step of a path. -/
inductive Step
  | name (name : String)
  /-- One dot: the directory itself. -/
  | here
  /-- Two dots: the directory around it. -/
  | up
deriving DecidableEq

/-- The step that a piece between slashes stands for; none if it is empty. -/
def Step.ofString? (s : String) : Option Step :=
  if s = "" then none else if s = "." then some .here else if s = ".." then some .up
  else some (.name s)

/-- The steps of a path. -/
def steps (p : Path) : List Step :=
  (p.text.toList.splitOn '/').filterMap fun piece => Step.ofString? (String.ofList piece)

/-- Whether a path ends in a slash, and so must lead to a directory. -/
def endsInSlash (p : Path) : Bool := p.text.toList.getLast? == some '/'

/-- The steps to the directory in which the path ends. -/
def parentSteps (p : Path) : List Step := (p.steps.filter (· ≠ .here)).dropLast

/-- The text of a step. -/
def Step.text : Step → String
  | name s => s
  | here => "."
  | up => ".."

/-- The directory in which the path ends; its text is empty if that is the working directory. -/
def parent (p : Path) : Path :=
  let below := String.intercalate "/" (p.parentSteps.map Step.text)
  ⟨if p.text.toList.head? == some '/' then "/" ++ below else below⟩

/-- The path to something in a directory. -/
def join (directory : Path) (name : String) : Path :=
  ⟨if directory.text.isEmpty || directory.endsInSlash then directory.text ++ name
    else directory.text ++ "/" ++ name⟩

end Path

end ButtonStyle

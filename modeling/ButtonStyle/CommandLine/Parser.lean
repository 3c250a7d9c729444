import ButtonStyle.CommandLine.Basic
import ButtonStyle.Css.Scope

/-!
# Reading a command line

Arguments are read from left to right, and the first problem wins.  An option whose value may be
the next argument waits for it, and is entered when the next option or name is met or the line
ends; so a problem with its value is noticed then.  Only at the end is it noticed that options
exclude each other or that something is missing.
-/

namespace ButtonStyle.CommandLine

/-- The places in the tree of commands at which arguments are read. -/
inductive Level
  | top
  | exportButton
  | defaults
  | presets
  | listPresets
  | savePreset
  /-- The command that shows the help of another. -/
  | help
deriving DecidableEq

/-- The options of all commands. -/
inductive Switch
  | help
  | version
  | input
  | preset
  | format
  | previewId
  | copy
deriving DecidableEq

/-- Whether an option has a value. -/
inductive Arity
  | noValue
  | value
  | perhapsValue
deriving DecidableEq

namespace Switch

/-- The word that stands for an option after two dashes. -/
def long : Switch → String
  | help => "help"
  | version => "version"
  | input => "input"
  | preset => "preset"
  | format => "format"
  | previewId => "preview-id"
  | copy => "copy"

/-- The letter that stands for an option after one dash. -/
def short? : Switch → Option Char
  | help => some 'h'
  | version => some 'V'
  | input => some 'i'
  | preset => some 'p'
  | format => some 'f'
  | previewId | copy => none

/-- Whether an option has a value. -/
def arity : Switch → Arity
  | help | version | copy => .noValue
  | input | preset | format => .value
  | previewId => .perhapsValue

end Switch

namespace Level

/-- The options that are known at a level. -/
def switches : Level → List Switch
  | top => [.help, .version]
  | exportButton => [.help, .input, .preset, .format, .previewId, .copy]
  | savePreset => [.help, .input]
  | defaults | presets | listPresets => [.help]
  | help => []

/-- The commands below a level. -/
def commands : Level → List (String × Level)
  | top =>
    [("export", exportButton), ("defaults", defaults), ("presets", presets), ("help", help)]
  | presets => [("list", listPresets), ("save", savePreset), ("help", help)]
  | exportButton | defaults | listPresets | savePreset | help => []

/-- The command of a name below a level. -/
def command? (level : Level) (name : String) : Option Level := level.commands.lookup name

/-- The answer to a request for help on the command that `names` lead to. -/
def helpOn (level : Level) : List String → Usage
  | [] => .helpAsked
  | name :: names =>
    match level.command? name with
    | some below => below.helpOn names
    | none => .commandUnknown

end Level

/-! ### Arguments -/

/-- The kinds of argument. -/
inductive Argument
  /-- Two dashes: no option follows. -/
  | separator
  | long (name : List Char) (value : Option (List Char))
  | short (letter : Char) (more : List Char)
  | plain
deriving DecidableEq

/-- The part before the first equals sign, and the part after it if there is one. -/
def splitValue : List Char → List Char × Option (List Char)
  | [] => ([], none)
  | c :: cs =>
    if c = '=' then ([], some cs)
    else
      let (name, value) := splitValue cs
      (c :: name, value)

/-- The kind of an argument.  A single dash is plain. -/
def Argument.ofChars : List Char → Argument
  | ['-', '-'] => .separator
  | '-' :: '-' :: cs =>
    let (name, value) := splitValue cs
    .long name value
  | '-' :: c :: cs => .short c cs
  | _ => .plain

/-- The value that stands right after the letter of an option, if there is one; an equals sign may
stand between them. -/
def attached? : List Char → Option String
  | [] => none
  | '=' :: cs => some (String.ofList cs)
  | cs => some (String.ofList cs)

/-! ### Options and names that have been read -/

/-- What has been entered. -/
structure Entered where
  options : ExportOptions := {}
  name : Option String := none
deriving DecidableEq

namespace Entered

/-- Enters an option that must have a value and must not have been entered before. -/
def once (old new : Option String) : Except Usage String :=
  match new with
  | none => .error .valueMissing
  | some v => if old.isSome then .error .conflict else .ok v

/-- Enters an option. -/
def enter (e : Entered) (value : Option String) : Switch → Except Usage Entered
  | .help => .error .helpAsked
  | .version => .error .versionAsked
  | .input => do
    let v ← once e.options.input value
    if v.isEmpty then .error .valueMissing
    else return { e with options.input := some v }
  | .preset => do
    let v ← once e.options.preset value
    return { e with options.preset := some v }
  | .format => do
    let v ← once (e.options.format.map Named.name) value
    match Format.ofString? v with
    | some format => return { e with options.format := some format }
    | none => .error .formatUnknown
  | .previewId =>
    if e.options.previewId.isSome then .error .conflict
    else return { e with options.previewId := some (value.getD Css.previewId) }
  | .copy =>
    if e.options.copy then .error .conflict else return { e with options.copy := true }

end Entered

/-- An option that waits to be entered. -/
structure Waiting where
  switch : Switch
  value : Option String
deriving DecidableEq

/-- How far a command line has been read. -/
structure Progress where
  level : Level
  entered : Entered := {}
  waiting : Option Waiting := none
  /-- Whether a separator has been read. -/
  separated : Bool := false
deriving DecidableEq

namespace Progress

/-- Enters the option that waits, if one does. -/
def settle (p : Progress) : Except Usage Progress := do
  match p.waiting with
  | none => return p
  | some w => return { p with entered := ← p.entered.enter w.value w.switch, waiting := none }

/-- Enters an option whose value is settled. -/
def enter (p : Progress) (switch : Switch) (value : Option String) : Except Usage Progress := do
  let p ← p.settle
  return { p with entered := ← p.entered.enter value switch }

/-- Goes on after an option and the value attached to it, if there is one. -/
def meet (p : Progress) (switch : Switch) (value : Option String) : Except Usage Progress := do
  match switch.arity, value with
  | .noValue, none => p.enter switch none
  | .noValue, some _ => .error .valueNotTaken
  | _, some v => p.enter switch (some v)
  | _, none => return { ← p.settle with waiting := some ⟨switch, none⟩ }

/-- The problem with an argument that there is no place for. -/
def surplus (p : Progress) (argument : String) : Usage :=
  if p.level.commands.isEmpty then .argumentUnknown
  else if p.separated && (p.level.command? argument).isSome then .argumentUnknown
  else .commandUnknown

/-- Goes on after an argument that is a name if it is anything. -/
def meetName (p : Progress) (argument : String) : Except Usage Progress := do
  if p.level = .savePreset ∧ p.entered.name = none then
    let p ← p.settle
    return { p with entered.name := some argument }
  else .error (p.surplus argument)

/-- Goes on after an argument that is no option. -/
def meetPlain (p : Progress) (argument : String) : Except Usage Progress :=
  match p.waiting with
  | some ⟨switch, none⟩ => .ok { p with waiting := some ⟨switch, some argument⟩ }
  | _ => p.meetName argument

/-- Goes on after an argument that is no command. -/
def step (p : Progress) (argument : String) : Except Usage Progress :=
  if p.separated then p.meetName argument
  else
    match Argument.ofChars argument.toList with
    | .separator => .ok { p with separated := true }
    | .long name value =>
      match p.level.switches.find? fun s => s.long.toList == name with
      | some switch => p.meet switch (value.map String.ofList)
      | none => .error .argumentUnknown
    | .short letter more =>
      match p.level.switches.find? fun s => s.short? == some letter with
      | some switch => p.meet switch (if switch.arity = .noValue then none else attached? more)
      | none => .error .argumentUnknown
    | .plain => p.meetPlain argument

/-- The command of a line that is read to its end. -/
def finish (p : Progress) : Except Usage Command := do
  let p ← p.settle
  let options := p.entered.options
  match p.level with
  | .top | .presets | .help => .error .commandMissing
  | .exportButton =>
    if options.input.isSome && options.preset.isSome then .error .conflict
    else return .exportButton options
  | .defaults => return .printDefaults
  | .listPresets => return .listPresets
  | .savePreset =>
    match p.entered.name with
    | some name => return .savePreset name options.input
    | none => .error .nameMissing

/-- The command below the level that an argument names. -/
def command? (p : Progress) (argument : String) : Option Level :=
  if p.separated then none else p.level.command? argument

/-- Reads the arguments that are left. -/
def read (p : Progress) : List String → Except Usage Command
  | [] => p.finish
  | argument :: rest =>
    match p.command? argument with
    | some .help => .error (p.level.helpOn rest)
    | some level => Progress.read { level := level } rest
    | none => do (← p.step argument).read rest

end Progress

end ButtonStyle.CommandLine

namespace ButtonStyle

/-- The command that the arguments of a command line ask for. -/
def Command.ofArguments (arguments : List String) : Except Usage Command :=
  CommandLine.Progress.read { level := .top } arguments

end ButtonStyle

import ButtonStyle.Proofs.Disk.Without
import ButtonStyle.Proofs.Preset.Exporting
import ButtonStyle.Proofs.Session.Commands

/-!
# Preferences that cannot be used

A procedure may end in the same way whether or not something stands at a place of a disk, and
change everything else in the same way (`Commutes`).  The requests of a command are of this kind, as
long as its input does not lead to or through that place, and so every command is
(`Session.commutes_execute`).

Nothing is taken from preferences that cannot be read or do not fit
(`Preferences.run_ofEnvironment_of_unfit`).  Main statement: **a run with such preferences ends like
the run without them**, with one warning more (`Program.run_without_preferences`).
-/

namespace ButtonStyle

open Procedure

variable {α β σ : Type}

/-! ### Runs from two states -/

namespace Procedure

/-- A procedure ends with the same value when it begins in the state that `f` makes of another, and
`f` makes the state after it of the other one. -/
def Commutes (system : System σ) (f : σ → σ) (p : Procedure α) (s : σ) : Prop :=
  p.run system (f s) = ((p.run system s).1, f (p.run system s).2)

theorem commutes_pure {system : System σ} {f : σ → σ} (a : α) (s : σ) :
    (pure a : Procedure α).Commutes system f s := rfl

theorem Commutes.bind {system : System σ} {f : σ → σ} {p : Procedure α} {g : α → Procedure β}
    {s : σ} (hp : p.Commutes system f s) (hg : ∀ a, (g a).Commutes system f (p.run system s).2) :
    (p >>= g).Commutes system f s := by
  rw [Commutes] at hp
  rw [Commutes, run_bind, run_bind, hp]
  exact hg _

/-- What comes after a procedure that only asks begins in the same state. -/
theorem Commutes.bind_of_onlyAsks {system : System σ} {f : σ → σ} {p : Procedure α}
    {g : α → Procedure β} {s : σ} (hp : p.Commutes system f s) (hasks : p.OnlyAsks)
    (hg : ∀ a, (g a).Commutes system f s) : (p >>= g).Commutes system f s := by
  refine hp.bind fun a => ?_
  rw [run_of_onlyAsks hasks]
  exact hg a

end Procedure

/-! ### A desk without a file or directory -/

namespace Desk

/-- A desk without what stands at a place of its disk. -/
def without (place : List String) (d : Desk) : Desk := { d with disk := d.disk.without place }

variable {place : List String} {d : Desk}

theorem commutes_prints (place : List String) (text : String) (d : Desk) :
    (prints text).Commutes Desk.system (without place) d := by
  show Desk.print text (d.without place) =
    ((Desk.print text d).1, (Desk.print text d).2.without place)
  rw [Desk.print, Desk.print]
  cases hroom : d.room <;> simp only [without, hroom]

theorem commutes_copies (place : List String) (text : String) (d : Desk) :
    (copies text).Commutes Desk.system (without place) d := by
  show Desk.copy text (d.without place) =
    ((Desk.copy text d).1, (Desk.copy text d).2.without place)
  rw [Desk.copy, Desk.copy]
  cases hrefusal : d.refusal <;> simp only [without, hrefusal]

theorem commutes_readText (hplace : place ≠ []) {p : Path}
    (h : ¬ d.disk.PassesThrough p.steps place) :
    (readText p).Commutes Desk.system (without place) d := by
  have hread : Desk.system.read p (d.without place) = Desk.system.read p d :=
    Disk.read_without hplace h
  rw [Commutes, readText, run, run, hread]
  cases Desk.system.read p d with
  | error why => rfl
  | ok content =>
    simp only
    cases String.fromUTF8? content <;> rfl

/-- A path leads to a place in a directory that is there with and without what stands at another
place. -/
structure Beside (place : List String) (p : Path) (d : Desk) : Prop where
  ne_nil : place ≠ []
  not_passes : ¬ d.disk.PassesThrough p.steps place
  apart : ∀ target, d.disk.follow [] p.steps = .ok target →
    ¬ place <+: target.names ∧ ¬ target.names <+: place
  there : d.disk.isDirectory p.parentSteps = true
  kept : (d.disk.without place).isDirectory p.parentSteps = true

variable {p : Path}

theorem Beside.content?_without (h : d.Beside place p) :
    Desk.system.content? p (d.without place) = Desk.system.content? p d := by
  rw [content?_eq, content?_eq, without, Disk.holds_without h.ne_nil h.not_passes,
    Disk.read_without h.ne_nil h.not_passes]

/-- Making the directories around a path beside does nothing. -/
theorem Beside.makesParents (h : d.Beside place p) :
    (makesParents p).Commutes Desk.system (without place) d ∧
      ((makesParents p).run Desk.system d).2 = d := by
  obtain ⟨made, hmake, hmake'⟩ := Disk.exists_makeParents_eq h.there h.kept
  have hrun : Desk.system.makeParents p d = (made, d) := by rw [makeParents_eq, hmake]
  have hrun' : Desk.system.makeParents p (d.without place) = (made, d.without place) := by
    rw [makeParents_eq, without, hmake']
  rw [Commutes, PresetStore.run_makesParents, PresetStore.run_makesParents, hrun, hrun']
  exact ⟨rfl, rfl⟩

theorem Beside.commutes_writeText (h : d.Beside place p) (text : String) :
    (writeText p text).Commutes Desk.system (without place) d := by
  rw [Commutes, PresetStore.run_writeText, PresetStore.run_writeText, write_eq, write_eq, without,
    Disk.write_without h.ne_nil h.not_passes h.apart]
  cases d.disk.write p text.toUTF8 <;> rfl

end Desk

/-! ### Commands without a file or directory -/

/-- The file that a command is to read a button from, if there is one. -/
def Command.input? : Command → Option String
  | exportButton options => options.input
  | savePreset _ input => input
  | printDefaults | listPresets => none

section Commands

variable {place : List String} {d : Desk}

theorem Button.commutes_load (hplace : place ≠ []) {p : Path}
    (h : ¬ d.disk.PassesThrough p.steps place) :
    (load p).Commutes Desk.system (Desk.without place) d := by
  refine (Desk.commutes_readText hplace h).bind ?_
  rintro (why | text) <;> exact commutes_pure _ _

namespace PresetStore

variable {p : Path}

theorem commutes_writeList (h : d.Beside place p) (presets : List Preset) :
    (writeList p presets).Commutes Desk.system (Desk.without place) d := by
  obtain ⟨hmake, hsame⟩ := h.makesParents
  refine hmake.bind ?_
  rw [hsame]
  rintro (why | -)
  · exact commutes_pure _ _
  · refine (h.commutes_writeText _).bind ?_
    rintro (why | -) <;> exact commutes_pure _ _

theorem commutes_save {store : PresetStore} (h : d.Beside place store.path) (name : String)
    (b : Button) : (store.save name b).Commutes Desk.system (Desk.without place) d := by
  rw [save]
  split_ifs
  · exact commutes_pure _ _
  · refine (commutes_writeList h _).bind ?_
    rintro (fault | -) <;> exact commutes_pure _ _

end PresetStore

namespace Session

theorem commutes_printLine (place : List String) (line : String) (d : Desk) :
    (printLine line).Commutes Desk.system (Desk.without place) d :=
  (Desk.commutes_prints place _ d).bind fun _ => commutes_pure _ _

theorem commutes_printLines (place : List String) (lines : List String) (d : Desk) :
    (printLines lines).Commutes Desk.system (Desk.without place) d := by
  induction lines generalizing d with
  | nil => exact commutes_pure _ _
  | cons line lines ih =>
    refine (commutes_printLine place line d).bind ?_
    rintro (failure | -)
    · exact commutes_pure _ _
    · exact ih _

theorem commutes_deliver (place : List String) (session : Session) (options : ExportOptions)
    (b : Button) (d : Desk) :
    (session.deliver options b).Commutes Desk.system (Desk.without place) d := by
  cases h : options.copy with
  | true =>
    rw [deliver_of_copy h]
    exact (Desk.commutes_copies place _ d).bind fun _ => commutes_pure _ _
  | false =>
    rw [deliver_of_not_copy h]
    exact commutes_printLine place _ d

theorem commutes_exported (hplace : place ≠ []) (session : Session) {options : ExportOptions}
    (h : ∀ path, options.input = some path → ¬ d.disk.PassesThrough (Path.steps ⟨path⟩) place) :
    (session.exported options).Commutes Desk.system (Desk.without place) d := by
  rw [exported]
  split
  · exact Button.commutes_load hplace (h _ ‹_›)
  · split <;> exact commutes_pure _ _
  · exact commutes_pure _ _

theorem commutes_exportButton (hplace : place ≠ []) (session : Session) {options : ExportOptions}
    (h : ∀ path, options.input = some path → ¬ d.disk.PassesThrough (Path.steps ⟨path⟩) place) :
    (session.exportButton options).Commutes Desk.system (Desk.without place) d := by
  refine (commutes_exported hplace session h).bind ?_
  rintro (failure | b)
  · exact commutes_pure _ _
  · exact commutes_deliver place session options b _

theorem commutes_savePreset {session : Session} (hbeside : d.Beside place session.store.path)
    (name : String) {input : Option String}
    (h : ∀ path, input = some path → ¬ d.disk.PassesThrough (Path.steps ⟨path⟩) place) :
    (session.savePreset name input).Commutes Desk.system (Desk.without place) d := by
  have hfound : (Button.ofInput input).Commutes Desk.system (Desk.without place) d := by
    cases input with
    | none => exact commutes_pure _ _
    | some path => exact Button.commutes_load hbeside.ne_nil (h path rfl)
  refine hfound.bind_of_onlyAsks (Button.onlyAsks_ofInput input) ?_
  rintro (failure | b)
  · exact commutes_pure _ _
  · refine (PresetStore.commutes_save hbeside name b).bind ?_
    rintro (fault | store) <;> exact commutes_pure _ _

/-- **Every command does the same without what stands at a place beside the presets**, if its input
does not lead to or through that place. -/
theorem commutes_execute {session : Session} (hbeside : d.Beside place session.store.path)
    {command : Command} (h : ∀ path, command.input? = some path →
      ¬ d.disk.PassesThrough (Path.steps ⟨path⟩) place) :
    (session.execute command).Commutes Desk.system (Desk.without place) d := by
  cases command with
  | exportButton options =>
    exact (commutes_exportButton hbeside.ne_nil session h).bind fun _ => commutes_pure _ _
  | printDefaults => exact (commutes_printLine place _ d).bind fun _ => commutes_pure _ _
  | listPresets => exact (commutes_printLines place _ d).bind fun _ => commutes_pure _ _
  | savePreset name input => exact commutes_savePreset hbeside name h

end Session

end Commands

/-! ### Preferences that are not there or do not fit -/

section Preferences

variable {system : System σ} {env : Environment} {path : Path} {s : σ}
  (hpath : env.preferencesFile? = some path)
include hpath

theorem Preferences.run_ofEnvironment_of_missing (h : system.holds path s = false) :
    (ofEnvironment env).run system s = (({}, []), s) := by
  simp only [ofEnvironment, hpath, load]
  rw [run_bind, asksHolds, run, h]
  rfl

/-- **Nothing is taken from preferences that cannot be read or do not fit.** -/
theorem Preferences.run_ofEnvironment_of_unfit (h : system.holds path s = true)
    (hunfit : ∀ text preferences, system.read path s = .ok text.toUTF8 →
      shape.ofString text ≠ .ok preferences) :
    (ofEnvironment env).run system s = (({}, [.preferencesUnread]), s) := by
  simp only [ofEnvironment, hpath, load]
  rw [run_bind, asksHolds, run, h]
  simp only [run, if_true]
  rw [run_bind, readText, run]
  cases hread : system.read path s with
  | error why => rfl
  | ok content =>
    simp only
    cases htext : String.fromUTF8? content with
    | none => rfl
    | some text =>
      have hcontent : content = text.toUTF8 := by
        rw [String.toUTF8_eq_toByteArray, toByteArray_of_fromUTF8? htext]
      cases hfits : shape.ofString text with
      | ok preferences =>
        rw [hcontent] at hread
        exact absurd hfits (hunfit text preferences hread)
      | error fault => simp only [run, hfits]; rfl

omit hpath in
/-- A session is opened with the preferences and presets that are found, and tells what went wrong
with the ones before what went wrong with the others. -/
theorem Session.run_ofEnvironment_of_found {p : Path} (hp : env.presetsFile? = some p)
    {preferences : Preferences} {warnings : List Warning} {store : PresetStore}
    {fault? : Option StoreFault}
    (hpreferences : (Preferences.ofEnvironment env).run system s = ((preferences, warnings), s))
    (hstore : (PresetStore.reload ⟨p, []⟩).run system s = ((store, fault?), s)) :
    (ofEnvironment env).run system s =
      (.ok (⟨preferences, store⟩, warnings ++ fault?.toList.map fun _ => .presetsUnread), s) := by
  rw [ofEnvironment, run_bind, hpreferences]
  simp only [hp]
  rw [run_bind, hstore]
  rfl

end Preferences

theorem PresetStore.run_reload_without {place : List String} {d : Desk} {p : Path}
    (h : d.Beside place p) : ∃ presets fault?,
      (reload ⟨p, []⟩).run Desk.system d = ((⟨p, presets⟩, fault?), d) ∧
      (reload ⟨p, []⟩).run Desk.system (d.without place) =
        ((⟨p, presets⟩, fault?), d.without place) := by
  rw [run_reload, run_reload, h.content?_without]
  simp only
  cases listOf p (Desk.system.content? p d) <;> exact ⟨_, _, rfl, rfl⟩

/-- The files of preferences and presets are in the same directory. -/
theorem Environment.exists_directory {env : Environment} {path : Path}
    (h : env.preferencesFile? = some path) : ∃ directory : Path,
      path = directory.join "config.json" ∧
      env.presetsFile? = some (directory.join "button_presets_v2.json") := by
  obtain ⟨root, hroot, rfl⟩ := Option.map_eq_some_iff.1 h
  exact ⟨root.join "buttonsmith", rfl, by rw [presetsFile?, file?, hroot]; rfl⟩

/-- The presets are beside the preferences. -/
theorem Desk.exists_beside {env : Environment} {path : Path} {d : Desk} {place : List String}
    {node : Node} (hpath : env.preferencesFile? = some path)
    (hplace : d.disk.locate path = .ok (.taken place node))
    (hkept : (d.disk.without place).isDirectory path.parentSteps = true) :
    ∃ p, env.presetsFile? = some p ∧ d.Beside place p ∧
      (d.disk.without place).holds path = false := by
  obtain ⟨directory, rfl, hp⟩ := Environment.exists_directory hpath
  have hstep : (directory.join "config.json").steps = directory.steps ++ [.name "config.json"] :=
    directory.steps_join (by decide) (by decide)
  have hstep' : (directory.join "button_presets_v2.json").steps =
      directory.steps ++ [.name "button_presets_v2.json"] :=
    directory.steps_join (by decide) (by decide)
  have hparent' : (directory.join "button_presets_v2.json").parentSteps =
      directory.steps.filter (· ≠ .here) := directory.parentSteps_join (by decide) (by decide)
  rw [directory.parentSteps_join (by decide) (by decide)] at hkept
  have hfollow := Disk.follow_of_locate hplace
  rw [hstep] at hfollow
  have hne : "button_presets_v2.json" ≠ "config.json" := by decide
  refine ⟨_, hp, ⟨Disk.ne_nil_of_follow_concat hfollow, ?_, ?_, ?_, ?_⟩,
    Disk.holds_without_eq_false hfollow hstep⟩
  · rw [hstep']
    exact Disk.not_passesThrough_of_kept hne hfollow hkept
  · rw [hstep']
    exact fun target => Disk.apart_of_follow_concat hne hfollow
  · rw [hparent']
    exact Disk.isDirectory_of_follow_concat hfollow
  · rwa [hparent']

namespace Report

/-- A report with one warning less. -/
def without (report : Report) (warning : Warning) : Report :=
  { report with warnings := report.warnings.erase warning }

theorem without_ofResult (warning : Warning) (warnings : List Warning) (r : Except Failure α) :
    (ofResult (warning :: warnings) r).without warning = ofResult warnings r := by
  cases r <;> simp [ofResult, without]

theorem without_of_nil {report : Report} (h : report.warnings = []) (warning : Warning) :
    report.without warning = report := by
  rw [without, h, List.erase_nil, ← h]

end Report

namespace Program

theorem commutes_explain (place : List String) (usage : Usage) (d : Desk) :
    (explain usage).Commutes Desk.system (Desk.without place) d := by
  rw [explain]
  split_ifs
  · exact (Desk.commutes_prints place _ d).bind fun _ => commutes_pure _ _
  · exact commutes_pure _ _

theorem warnings_explain (system : System σ) (usage : Usage) (s : σ) :
    ((explain usage).run system s).1.warnings = [] := by
  rw [explain]
  split_ifs <;> rfl

/-- **Preferences that cannot be used count as none at all.**  Whatever the command line is, if its
input does not lead to or through them, then the run ends as it does when they alone are missing
from their directory: with the same output, clipboard and files, and the same report but for the
warning. -/
theorem run_without_preferences {env : Environment} {arguments : List String} {d : Desk}
    {path : Path} {place : List String} {node : Node} (hpath : env.preferencesFile? = some path)
    (hplace : d.disk.locate path = .ok (.taken place node))
    (hunfit : ∀ text preferences, d.disk.read path = .ok text.toUTF8 →
      Preferences.shape.ofString text ≠ .ok preferences)
    (hkept : (d.disk.without place).isDirectory path.parentSteps = true)
    (hinput : ∀ command input, Command.ofArguments arguments = .ok command →
      command.input? = some input → ¬ d.disk.PassesThrough (Path.steps ⟨input⟩) place) :
    d.disk.remove? path = some (d.without place).disk ∧
    (d.without place).disk.holds path = false ∧
    Preferences.opened Desk.system env d = {} ∧
    ∃ report t, (run env arguments).run Desk.system d = (report, t) ∧
      (run env arguments).run Desk.system (d.without place) =
        (report.without .preferencesUnread, t.without place) := by
  obtain ⟨p, hp, hbeside, hmissing⟩ := Desk.exists_beside hpath hplace hkept
  have hthere : Desk.system.holds path d = true := by
    show d.disk.holds path = true
    rw [Disk.holds, hplace]
  have hpreferences := Preferences.run_ofEnvironment_of_unfit hpath hthere hunfit
  have hpreferences' : (Preferences.ofEnvironment env).run Desk.system (d.without place) =
      (({}, []), d.without place) := Preferences.run_ofEnvironment_of_missing hpath hmissing
  refine ⟨Disk.remove?_of_locate hplace, hmissing, by rw [Preferences.opened, hpreferences], ?_⟩
  rw [run]
  cases hcommand : Command.ofArguments arguments with
  | error usage =>
    refine ⟨_, _, rfl, (commutes_explain place usage d).trans ?_⟩
    rw [Report.without_of_nil (warnings_explain Desk.system usage d)]
  | ok command =>
    obtain ⟨presets, fault?, hstore, hstore'⟩ := PresetStore.run_reload_without hbeside
    have hopen := Session.run_ofEnvironment_of_found hp hpreferences hstore
    have hopen' := Session.run_ofEnvironment_of_found hp hpreferences' hstore'
    have hstored : d.Beside place (Session.mk {} ⟨p, presets⟩).store.path := hbeside
    have hexecute := Session.commutes_execute hstored (hinput command · hcommand)
    rw [Commutes] at hexecute
    refine ⟨_, _, run_perform hopen command, (run_perform hopen' command).trans ?_⟩
    rw [hexecute, List.singleton_append, Report.without_ofResult, List.nil_append]

end Program

/-! ### A desk with preferences of a user -/

namespace Desk

/-- A desk with a file of a button and, in the directory of a user, a file of preferences. -/
def preferring (preferences : String) : Desk where
  disk := ⟨.directory
    [("button.json", .file "\x7b\x7d".toUTF8 false),
     ("cfg", .directory
       [("buttonsmith", .directory [("config.json", .file preferences.toUTF8 false)])])]⟩

/-- The file of preferences of the user. -/
def userPreferences : Path := ⟨"cfg/buttonsmith/config.json"⟩

/-- Where that file is. -/
def preferencesPlace : List String := ["cfg", "buttonsmith", "config.json"]

theorem steps_userPreferences :
    userPreferences.steps = [.name "cfg", .name "buttonsmith", .name "config.json"] := by decide

theorem tooLong_config : Node.tooLong "config.json" = false := by decide

theorem locate_preferring (preferences : String) :
    (preferring preferences).disk.locate userPreferences =
      .ok (.taken preferencesPlace (.file preferences.toUTF8 false)) := by
  have hcheck : Disk.check userPreferences = .ok () := by decide
  have hslash : userPreferences.endsInSlash = false := by decide
  rw [Disk.locate, hcheck, steps_userPreferences]
  simp [preferring, preferencesPlace, Disk.follow, Node.find?, tooLong_user, tooLong_config,
    List.lookup_cons, bind, Except.bind, hslash]

theorem isDirectory_preferring (preferences : String) :
    ((preferring preferences).disk.without preferencesPlace).isDirectory
      userPreferences.parentSteps = true := by
  have hparent : userPreferences.parentSteps = [.name "cfg", .name "buttonsmith"] := by decide
  rw [hparent]
  simp [preferring, preferencesPlace, Disk.without, Node.remove, Disk.isDirectory, Disk.follow,
    Node.find?, tooLong_user, List.lookup_cons]

theorem not_passesThrough_preferring (preferences : String) :
    ¬ (preferring preferences).disk.PassesThrough buttonPath.steps preferencesPlace := by
  rintro ⟨before, node, hbefore, hfollow⟩
  rw [steps_buttonPath] at hbefore
  cases before with
  | nil =>
    have hnames : preferencesPlace = [] := Disk.names_of_follow (by decide) hfollow
    exact absurd hnames (by decide)
  | cons step before =>
    obtain ⟨rfl, hnil⟩ := List.cons_prefix_cons.1 hbefore
    rw [List.prefix_nil.1 hnil] at hfollow
    have hnames : preferencesPlace = ["button.json"] := Disk.names_of_follow (by decide) hfollow
    exact absurd hnames (by decide)

end Desk

/-- Preferences with an element, and with a format that there is not. -/
def Preferences.strangeFormat : String :=
  "\x7b\"preview_element_id\": \"demo\", \"default_format\": \"scss\"\x7d"

/-- The element of preferences does not count either if their format is unknown. -/
theorem Program.run_without_preferences_strange_format :
    ∃ report t,
      (run Desk.userEnvironment ["export", "-ibutton.json"]).run Desk.system
        (Desk.preferring Preferences.strangeFormat) = (report, t) ∧
      (run Desk.userEnvironment ["export", "-ibutton.json"]).run Desk.system
        ((Desk.preferring Preferences.strangeFormat).without Desk.preferencesPlace) =
        (report.without .preferencesUnread, t.without Desk.preferencesPlace) := by
  have hpath : Desk.userEnvironment.preferencesFile? = some Desk.userPreferences := by decide
  have hcommand : Command.ofArguments ["export", "-ibutton.json"] =
      .ok (.exportButton { input := some "button.json" }) := by decide
  have herror : (Preferences.shape.ofString Preferences.strangeFormat).isOk = false := by
    decide +kernel
  refine (run_without_preferences hpath (Desk.locate_preferring _) ?_
    (Desk.isDirectory_preferring _) ?_).2.2.2
  · intro text preferences hread hfits
    rw [Disk.read, Desk.locate_preferring] at hread
    have htext := PresetStore.fromUTF8?_toUTF8 text
    rw [← Except.ok.inj hread, PresetStore.fromUTF8?_toUTF8] at htext
    cases htext
    rw [hfits] at herror
    cases herror
  · intro command input h hinput
    cases hcommand.symm.trans h
    cases hinput
    exact Desk.not_passesThrough_preferring _

end ButtonStyle

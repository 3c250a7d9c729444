import ButtonStyle.Button.Edit
import ButtonStyle.Proofs.Program

/-!
# Exporting presets

A preset that has been saved from a file is exported as the file is (`export_saved_preset`).  What
carries this is that the preset is the first of its name in the list, which has the button of the
file (`Stored`).  Later saves only add presets behind it, whatever their names are.
-/

namespace ButtonStyle

variable {σ : Type}

theorem PresetStore.opened_eq {system : System σ} {p : Path} {s : σ} {presets : List Preset}
    (h : listOf p (system.content? p s) = .ok presets) : opened system p s = presets := by
  rw [opened, run_readList, h]

namespace Program

/-- How things may be later on: presets have been saved, under whatever names, and whatever else has
happened has left the file of presets and the file `f` as they were. -/
inductive Later (system : System σ) (env : Environment) (p f : Path) (s : σ) : σ → Prop
  | now : Later system env p f s s
  | save {t u : σ} {name : String} {input : Option String} (h : Later system env p f s t)
      (hsave : Saves system env name input t u) : Later system env p f s u
  | elsewhere {t u : σ} (h : Later system env p f s t)
      (hpresets : system.content? p u = system.content? p t)
      (hfile : system.read f u = system.read f t) : Later system env p f s u

/-- The first preset of a name has the button that the text of a file stands for. -/
structure Stored (system : System σ) (p f : Path) (name : String) (b : Button) (text : String)
    (s : σ) : Prop where
  preset : ∃ presets, PresetStore.listOf p (system.content? p s) = .ok presets ∧
    Preset.find? name presets = some ⟨name, b⟩
  file : system.read f s = .ok text.toUTF8
  button : Button.shape.ofString text = .ok b

section Runs

variable {system : System σ} {env : Environment} {p f : Path} (hp : env.presetsFile? = some p)
  (hbeside : system.WritesBeside p f)
include hp hbeside

/-- A run that saves a preset leaves the file beside the presets as it is, and adds the preset to
the list. -/
theorem content_of_saves {name : String} {input : Option String} {s t : σ} {content : ByteArray}
    (hfile : system.read f s = .ok content) (hsave : Saves system env name input s t) :
    system.read f t = .ok content ∧
      ∃ b, (Button.ofInput input).run system s = (.ok b, s) ∧
        PresetStore.listOf p (system.content? p t) =
          .ok (PresetStore.opened system p s ++ [⟨name, b⟩]) := by
  obtain ⟨-, b, u, hfound, hmake, hwrite⟩ := (saves_iff hp).1 hsave
  have hmade := hbeside.makeParents s content hfile
  rw [hmake] at hmade
  have hread := hbeside.write u content _ hmade (congrArg Prod.fst hwrite)
  have hcontent := hbeside.written u _ (congrArg Prod.fst hwrite)
  rw [hwrite] at hread hcontent
  refine ⟨hread, b, hfound, ?_⟩
  rw [hcontent, PresetStore.listOf_text_iff, Preset.areFinite_concat]
  exact ⟨PresetStore.areFinite_opened system p s, Button.isFinite_of_run_ofInput hfound⟩

/-- A preset that is saved from a file under a new name has the button of the file. -/
theorem stored_of_saves {name text : String} {b : Button} {old : List Preset} {s t : σ}
    (hfile : system.read f s = .ok text.toUTF8) (hb : Button.shape.ofString text = .ok b)
    (hold : PresetStore.listOf p (system.content? p s) = .ok old)
    (hnew : Preset.find? name old = none) (hsave : Saves system env name (some f.text) s t) :
    Stored system p f name b text t := by
  obtain ⟨hread, b', hfound, hlist⟩ := content_of_saves hp hbeside hfile hsave
  obtain rfl : b' = b := by
    have hload : (Button.ofInput (some f.text)).run system s = (.ok b, s) :=
      Button.run_load hfile hb
    rw [hload] at hfound
    cases hfound
    rfl
  refine ⟨⟨_, hlist, ?_⟩, hread, hb⟩
  rw [Preset.find?] at hnew
  rw [PresetStore.opened_eq hold, Preset.find?, List.find?_append, hnew]
  simp

/-- **The first preset of a name stays the first when presets are saved**, under this name or
another. -/
theorem Stored.save {name text : String} {b : Button} {s t : σ}
    (h : Stored system p f name b text s) {name' : String} {input : Option String}
    (hsave : Saves system env name' input s t) : Stored system p f name b text t := by
  obtain ⟨presets, hlist, hfind⟩ := h.preset
  obtain ⟨hread, b', -, hlist'⟩ := content_of_saves hp hbeside h.file hsave
  refine ⟨⟨_, hlist', ?_⟩, hread, h.button⟩
  rw [Preset.find?] at hfind
  rw [PresetStore.opened_eq hlist, Preset.find?, List.find?_append, hfind]
  rfl

theorem Stored.later {name text : String} {b : Button} {s t : σ}
    (h : Stored system p f name b text s) (hlater : Later system env p f s t) :
    Stored system p f name b text t := by
  induction hlater with
  | now => exact h
  | save _ hsave ih => exact ih.save hp hbeside hsave
  | elsewhere _ hpresets hfile ih =>
    obtain ⟨hpreset, hread, hb⟩ := ih
    exact ⟨by rwa [hpresets], by rwa [hfile], hb⟩

end Runs

end Program

/-! ### A desk with presets of a user -/

namespace Desk

/-- A desk with a file of a button and, in the directory of a user, perhaps a file of presets. -/
def ofUser (button : ByteArray) (presets : Option ByteArray) : Desk where
  disk := ⟨.directory
    [("button.json", .file button false),
     ("cfg", .directory
       [("buttonsmith", .directory
         (presets.toList.map fun content => ("button_presets_v2.json", .file content false)))])]⟩

/-- The environment of that user. -/
def userEnvironment : Environment := ⟨some "cfg", none⟩

/-- The file of presets of that user. -/
def userPresets : Path := ⟨"cfg/buttonsmith/button_presets_v2.json"⟩

/-- The file of a button. -/
def buttonPath : Path := ⟨"button.json"⟩

theorem presetsFile?_user : userEnvironment.presetsFile? = some userPresets := by decide

theorem steps_userPresets : userPresets.steps =
    [.name "cfg", .name "buttonsmith", .name "button_presets_v2.json"] := by decide

theorem steps_buttonPath : buttonPath.steps = [.name "button.json"] := by decide

theorem writesBeside_user : Desk.system.WritesBeside userPresets buttonPath := by
  refine writesBeside (Path.apart_of_names ?_ ?_ ?_)
  · rw [steps_userPresets]
    decide
  · rw [steps_buttonPath]
    decide
  · rw [steps_userPresets, steps_buttonPath]
    decide

theorem tooLong_user : Node.tooLong "cfg" = false ∧ Node.tooLong "buttonsmith" = false ∧
    Node.tooLong "button_presets_v2.json" = false ∧ Node.tooLong "button.json" = false := by
  decide

theorem read_ofUser (button : ByteArray) (presets : Option ByteArray) :
    Desk.system.read buttonPath (ofUser button presets) = .ok button := by
  have hcheck : Disk.check buttonPath = .ok () := by decide
  have hslash : buttonPath.endsInSlash = false := by decide
  show (ofUser button presets).disk.read buttonPath = .ok button
  refine Disk.read_eq_ok_iff.2 ⟨hcheck, hslash, ["button.json"], false, ?_⟩
  rw [steps_buttonPath]
  simp [ofUser, Disk.follow, Node.find?, tooLong_user]

/-- Where the path of the presets leads. -/
theorem follow_ofUser (button : ByteArray) (presets : Option ByteArray) :
    (ofUser button presets).disk.follow [] userPresets.steps =
      .ok (match presets with
        | some content =>
          .taken ["cfg", "buttonsmith", "button_presets_v2.json"] (.file content false)
        | none => .free ["cfg", "buttonsmith", "button_presets_v2.json"]) := by
  rw [steps_userPresets]
  cases presets <;> simp [ofUser, Disk.follow, Node.find?, tooLong_user, List.lookup_cons]

theorem content?_ofUser_none (button : ByteArray) :
    Desk.system.content? userPresets (ofUser button none) = none := by
  have hcheck : Disk.check userPresets = .ok () := by decide
  rw [content?_eq, Disk.holds, Disk.locate, hcheck]
  simp [follow_ofUser, bind, Except.bind]

theorem makeParents_ofUser (button : ByteArray) (presets : Option ByteArray) :
    Desk.system.makeParents userPresets (ofUser button presets) =
      (.ok (), ofUser button presets) := by
  have hparents : userPresets.parentSteps = [.name "cfg", .name "buttonsmith"] := by decide
  have hdisk : (ofUser button presets).disk.makeParents userPresets =
      (.ok (), (ofUser button presets).disk) := by
    rw [Disk.makeParents, hparents]
    simp [ofUser, Disk.makeDirectories, Disk.makeDirectoryIfMissing, Disk.makeDirectory,
      Disk.isDirectory, Disk.follow, Node.find?, tooLong_user, List.lookup_cons]
  rw [makeParents_eq, hdisk]

theorem write_ofUser (button : ByteArray) (presets : Option ByteArray) (new : ByteArray) :
    Desk.system.write userPresets new (ofUser button presets) =
      (.ok (), ofUser button (some new)) := by
  have hcheck : Disk.check userPresets = .ok () := by decide
  have hslash : userPresets.endsInSlash = false := by decide
  rw [write_eq, Disk.write, hcheck, hslash]
  simp only [bind, Except.bind, Bool.false_eq_true, if_false, follow_ofUser]
  cases presets <;> simp [ofUser, Node.put, Node.putEntry, List.lookup_cons]

theorem content?_ofUser_some (button content : ByteArray) :
    Desk.system.content? userPresets (ofUser button (some content)) = some (.ok content) := by
  have h := content?_of_write_ok (congrArg Prod.fst (write_ofUser button none content))
  rwa [write_ofUser] at h

end Desk

namespace Program

/-- A save on the desk of a user. -/
theorem saves_ofUser {button : ByteArray} {presets : Option ByteArray} {old : List Preset}
    (hold : PresetStore.listOf Desk.userPresets
      (Desk.system.content? Desk.userPresets (.ofUser button presets)) = .ok old)
    (name : String) (hname : name.isEmpty = false) (input : Option String) {b : Button}
    (hinput : (Button.ofInput input).run Desk.system (.ofUser button presets) =
      (.ok b, .ofUser button presets)) :
    Saves Desk.system Desk.userEnvironment name input (.ofUser button presets)
      (.ofUser button (some (Preset.listText (old ++ [⟨name, b⟩])).toUTF8)) := by
  refine (saves_iff Desk.presetsFile?_user).2 ⟨hname, b, _, hinput, Desk.makeParents_ofUser _ _, ?_⟩
  rw [PresetStore.opened_eq hold, Desk.write_ofUser]

/-! ### Exports -/

/-- **A preset that has been saved from a file is exported as the file is**, whatever is saved
later: the export gives out the button that the text of the file stands for. -/
theorem export_saved_preset {system : System σ} {env : Environment} {p f : Path}
    (hp : env.presetsFile? = some p) (hbeside : system.WritesBeside p f) {s t u : σ}
    {name text : String} {b : Button} {old : List Preset}
    (hfile : system.read f s = .ok text.toUTF8) (hb : Button.shape.ofString text = .ok b)
    (hold : (PresetStore.readList p).run system s = (.ok old, s))
    (hnew : Preset.find? name old = none) (hsave : Saves system env name (some f.text) s t)
    (hlater : Later system env p f t u) (options : ExportOptions) :
    (perform env (.exportButton { options with input := none, preset := some name })).run
        system u =
      (perform env (.exportButton { options with input := some f.text, preset := none })).run
        system u ∧
    ∃ session warnings, (Session.ofEnvironment env).run system u = (.ok (session, warnings), u) ∧
      (perform env (.exportButton { options with input := none, preset := some name })).run
          system u =
        (.ofResult warnings ((session.deliver options b).run system u).1,
          ((session.deliver options b).run system u).2) := by
  rw [PresetStore.run_readList, Prod.mk.injEq, and_iff_left rfl] at hold
  have hstored := (stored_of_saves hp hbeside hfile hb hold hnew hsave).later hp hbeside hlater
  obtain ⟨presets, hlist, hfind⟩ := hstored.preset
  obtain ⟨warnings, hopen⟩ := Session.run_ofEnvironment hp system u
  rw [PresetStore.opened_eq hlist] at hopen
  have hpreset : (Session.exported ⟨.opened system env u, p, presets⟩
      { options with input := none, preset := some name }).run system u = (.ok b, u) := by
    simp only [Session.exported, PresetStore.find?, hfind]
    rfl
  have hinput : (Session.exported ⟨.opened system env u, p, presets⟩
      { options with input := some f.text, preset := none }).run system u = (.ok b, u) :=
    Button.run_load hstored.file hstored.button
  have hrun := run_perform_export hopen hpreset
  exact ⟨hrun.trans (run_perform_export hopen hinput).symm, _, warnings, hopen, hrun⟩

/-- The standard button without padding is saved from a file, and then the standard button under the
same name. -/
theorem export_saved_preset_of_two_saves :
    let b := Button.standard.setPadding none 0
    let button := (Button.shape.write Number.literal b).toCompact.toUTF8
    ∃ t u, Saves Desk.system Desk.userEnvironment "primary" (some "button.json")
        (.ofUser button none) t ∧
      Saves Desk.system Desk.userEnvironment "primary" none t u ∧
      (perform Desk.userEnvironment (.exportButton { preset := some "primary" })).run
          Desk.system u =
        (perform Desk.userEnvironment (.exportButton { input := some "button.json" })).run
          Desk.system u := by
  intro b button
  have hfinite : Button.shape.all Quantity.isFinite b = true := by decide
  have hb : Button.shape.ofString (Button.shape.write Number.literal b).toCompact = .ok b :=
    Shape.ofString_toCompact readsBack_literal Button.shape_isLawful hfinite
  have hfile : Desk.system.read Desk.buttonPath (.ofUser button none) = .ok button :=
    Desk.read_ofUser button none
  have hnone : PresetStore.listOf Desk.userPresets
      (Desk.system.content? Desk.userPresets (.ofUser button none)) = .ok [] := by
    rw [Desk.content?_ofUser_none]
    rfl
  have hsave := saves_ofUser hnone "primary" (by decide) (some "button.json")
    (Button.run_load hfile hb)
  have hold : PresetStore.listOf Desk.userPresets (Desk.system.content? Desk.userPresets
      (.ofUser button (some (Preset.listText ([] ++ [⟨"primary", b⟩])).toUTF8))) =
        .ok ([] ++ [⟨"primary", b⟩]) := by
    rw [Desk.content?_ofUser_some, PresetStore.listOf_text_iff, Preset.areFinite_concat]
    exact ⟨Preset.areFinite_nil, hfinite⟩
  have hagain := saves_ofUser hold "primary" (by decide) none (b := .standard) rfl
  refine ⟨_, _, hsave, hagain, ?_⟩
  have hread : (PresetStore.readList Desk.userPresets).run Desk.system (.ofUser button none) =
      (.ok [], .ofUser button none) := by
    rw [PresetStore.run_readList, hnone]
  exact (export_saved_preset Desk.presetsFile?_user Desk.writesBeside_user hfile hb hread rfl
    hsave (.save .now hagain) {}).1

end Program

end ButtonStyle

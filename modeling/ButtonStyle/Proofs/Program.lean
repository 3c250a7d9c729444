import ButtonStyle.Program
import ButtonStyle.Proofs.Preset.Opening
import ButtonStyle.Proofs.Procedure

/-!
# Runs of the program

Every run opens a session, which only asks (`run_ofEnvironment`), and then carries out its command
in that session (`run_perform`).  What an export gives out is settled by the button that it is about
(`run_perform_export`).  A run that saves a preset reads the list, finds the button, and writes the
longer list (`saves_iff`).
-/

namespace ButtonStyle

open Procedure

variable {σ : Type}

/-! ### Opening a session -/

theorem Preferences.onlyAsks_load (path : Path) : (load path).OnlyAsks := by
  refine (onlyAsks_asksHolds path).bind fun there => ?_
  cases there with
  | false => exact onlyAsks_pure _
  | true =>
    refine (onlyAsks_readText path).bind ?_
    rintro (why | text)
    · exact onlyAsks_pure _
    · simp only
      split <;> exact onlyAsks_pure _

theorem Preferences.onlyAsks_ofEnvironment (env : Environment) :
    (ofEnvironment env).OnlyAsks := by
  rw [ofEnvironment]
  split
  · exact onlyAsks_load _
  · exact onlyAsks_pure _

/-- The preferences that a session is opened with. -/
def Preferences.opened (system : System σ) (env : Environment) (s : σ) : Preferences :=
  ((ofEnvironment env).run system s).1.1

/-- A session is opened with the preferences and the presets that are found, and leaves everything
as it is. -/
theorem Session.run_ofEnvironment {env : Environment} {p : Path} (hp : env.presetsFile? = some p)
    (system : System σ) (s : σ) :
    ∃ warnings, (ofEnvironment env).run system s =
      (.ok (⟨.opened system env s, p, PresetStore.opened system p s⟩, warnings), s) := by
  rw [ofEnvironment, run_bind, run_of_onlyAsks (Preferences.onlyAsks_ofEnvironment env)]
  simp only [hp]
  rw [run_bind, PresetStore.run_reload, Preferences.opened, PresetStore.opened,
    PresetStore.run_readList]
  simp only
  cases PresetStore.listOf p (system.content? p s) <;> exact ⟨_, rfl⟩

/-! ### Carrying out a command -/

/-- How a run ends whose command has been carried out or has failed. -/
def Report.ofResult {α : Type} (warnings : List Warning) : Except Failure α → Report
  | .ok _ => { exit := 0, warnings }
  | .error failure => { exit := 1, failure := some failure, warnings }

theorem Report.ofResult_map {α β : Type} (warnings : List Warning) (r : Except Failure α)
    (f : α → β) : ofResult warnings (r.map f) = ofResult warnings r := by
  cases r <;> rfl

/-- A run carries out its command in the session that it opens. -/
theorem Program.run_perform {system : System σ} {env : Environment} {s : σ} {session : Session}
    {warnings : List Warning}
    (hopen : (Session.ofEnvironment env).run system s = (.ok (session, warnings), s))
    (command : Command) :
    (perform env command).run system s =
      (.ofResult warnings ((session.execute command).run system s).1,
        ((session.execute command).run system s).2) := by
  rw [perform, run_bind, hopen]
  simp only
  rw [run_bind]
  obtain ⟨r, t, hrun⟩ : ∃ r t, (session.execute command).run system s = (r, t) := ⟨_, _, rfl⟩
  rw [hrun]
  cases r <;> rfl

/-! ### Exports -/

/-- Gives out the export of a button: the text goes to the clipboard or is printed. -/
def Session.deliver (session : Session) (options : ExportOptions) (b : Button) :
    Procedure (Except Failure Unit) := do
  let text := session.exportText options b
  if options.copy then return (← Procedure.copies text).mapError .clipboard
  else printLine text

theorem Session.run_exportButton {system : System σ} {session : Session} {options : ExportOptions}
    {b : Button} {s : σ} (h : (session.exported options).run system s = (.ok b, s)) :
    (session.exportButton options).run system s =
      (session.deliver options b).run system s := by
  rw [exportButton, run_bind, h]
  rfl

/-- **What a run exports is settled by the button that the export is about.** -/
theorem Program.run_perform_export {system : System σ} {env : Environment} {s : σ}
    {session : Session} {warnings : List Warning}
    (hopen : (Session.ofEnvironment env).run system s = (.ok (session, warnings), s))
    {options : ExportOptions} {b : Button}
    (h : (session.exported options).run system s = (.ok b, s)) :
    (perform env (.exportButton options)).run system s =
      (.ofResult warnings ((session.deliver options b).run system s).1,
        ((session.deliver options b).run system s).2) := by
  rw [run_perform hopen, Session.execute, run_bind, Session.run_exportButton h]
  exact congrArg (·, _) (Report.ofResult_map warnings _ _)

/-- The button of a file is what its text is read as. -/
theorem Button.run_load {system : System σ} {f : Path} {s : σ} {text : String} {b : Button}
    (hfile : system.read f s = .ok text.toUTF8) (hb : shape.ofString text = .ok b) :
    (load f).run system s = (.ok b, s) := by
  rw [load, run_bind, readText]
  simp only [run, hfile, PresetStore.fromUTF8?_toUTF8]
  rw [hb]
  rfl

/-- What is loaded has been read from the text of a file. -/
theorem Button.exists_of_run_load {system : System σ} {f : Path} {s : σ} {b : Button}
    (h : (load f).run system s = (.ok b, s)) :
    ∃ text, system.read f s = .ok text.toUTF8 ∧ shape.ofString text = .ok b := by
  rw [load, run_bind, readText, run] at h
  cases hread : system.read f s with
  | error why =>
    rw [hread] at h
    cases h
  | ok content =>
    rw [hread] at h
    simp only at h
    cases htext : String.fromUTF8? content with
    | none =>
      rw [htext] at h
      cases h
    | some text =>
      rw [htext] at h
      refine ⟨text, by rw [String.toUTF8_eq_toByteArray, toByteArray_of_fromUTF8? htext], ?_⟩
      cases hb : shape.ofString text with
      | error fault =>
        simp only [run, hb] at h
        cases h
      | ok b' =>
        simp only [run, hb] at h
        cases h
        rfl

/-! ### Saves -/

theorem Button.onlyAsks_load (f : Path) : (load f).OnlyAsks := by
  refine (onlyAsks_readText f).bind ?_
  rintro (why | text) <;> exact onlyAsks_pure _

/-- A save that does not fail makes the directories and writes the longer list. -/
theorem PresetStore.run_save_eq_ok_iff {system : System σ} {store saved : PresetStore}
    {name : String} {b : Button} {s t : σ} :
    (store.save name b).run system s = (.ok saved, t) ↔
      name.isEmpty = false ∧ saved = { store with presets := store.presets ++ [⟨name, b⟩] } ∧
      ∃ u, system.makeParents store.path s = (.ok (), u) ∧
        system.write store.path (Preset.listText (store.presets ++ [⟨name, b⟩])).toUTF8 u =
          (.ok (), t) := by
  constructor
  · intro h
    rw [save] at h
    split_ifs at h with hname
    · cases h
    · obtain ⟨r, v, hlist, h⟩ := run_bind_eq_iff.1 h
      obtain ⟨made, u, hmake, hlist⟩ := run_bind_eq_iff.1 hlist
      cases made with
      | error why =>
        cases hlist
        cases h
      | ok =>
        obtain ⟨written, w, hwrite, hlist⟩ := run_bind_eq_iff.1 hlist
        cases written with
        | error why =>
          cases hlist
          cases h
        | ok =>
          cases hlist
          cases h
          exact ⟨by simpa using hname, rfl, u, hmake, hwrite⟩
  · rintro ⟨hname, rfl, u, hmake, hwrite⟩
    rw [save, if_neg (by simp [hname])]
    refine run_bind_eq_iff.2 ⟨.ok (), t, ?_, rfl⟩
    refine run_bind_eq_iff.2 ⟨.ok (), u, hmake, ?_⟩
    exact run_bind_eq_iff.2 ⟨.ok (), t, hwrite, rfl⟩

/-- The button that is saved as a preset. -/
def Button.ofInput (input : Option String) : Procedure (Except Failure Button) :=
  input.elim (pure (.ok .standard)) fun path => load ⟨path⟩

theorem Button.onlyAsks_ofInput (input : Option String) : (ofInput input).OnlyAsks := by
  cases input with
  | none => exact onlyAsks_pure _
  | some path => exact onlyAsks_load _

/-- The button that is saved holds numbers only. -/
theorem Button.isFinite_of_run_ofInput {system : System σ} {input : Option String} {b : Button}
    {s : σ} (h : (ofInput input).run system s = (.ok b, s)) :
    shape.all Quantity.isFinite b = true := by
  cases input with
  | none =>
    cases h
    exact isFinite_standard
  | some path =>
    obtain ⟨text, -, hb⟩ := exists_of_run_load h
    exact isFinite_of_ofString hb

/-- A preset that is saved is a button that has been found. -/
theorem Session.run_savePreset_eq_ok_iff {system : System σ} {session saved : Session}
    {name : String} {input : Option String} {s t : σ} :
    (session.savePreset name input).run system s = (.ok saved, t) ↔
      ∃ b store, (Button.ofInput input).run system s = (.ok b, s) ∧
        (session.store.save name b).run system s = (.ok store, t) ∧
        saved = { session with store } := by
  constructor
  · intro h
    obtain ⟨found, u, hfound, h⟩ := run_bind_eq_iff.1 h
    have hasks := run_of_onlyAsks (Button.onlyAsks_ofInput input) system s
    obtain ⟨-, rfl⟩ := Prod.mk.inj (hfound.symm.trans hasks)
    cases found with
    | error failure => cases h
    | ok b =>
      obtain ⟨stored, v, hsave, h⟩ := run_bind_eq_iff.1 h
      cases stored with
      | error fault => cases h
      | ok store =>
        cases h
        exact ⟨b, store, hfound, hsave, rfl⟩
  · rintro ⟨b, store, hfound, hsave, rfl⟩
    refine run_bind_eq_iff.2 ⟨.ok b, s, hfound, ?_⟩
    exact run_bind_eq_iff.2 ⟨.ok store, t, hsave, rfl⟩

/-- A run saves a preset. -/
def Program.Saves (system : System σ) (env : Environment) (name : String) (input : Option String)
    (s t : σ) : Prop :=
  ∃ report, (perform env (.savePreset name input)).run system s = (report, t) ∧ report.exit = 0

/-- **A run that saves a preset writes it after the presets that have been read.** -/
theorem Program.saves_iff {system : System σ} {env : Environment} {p : Path}
    (hp : env.presetsFile? = some p) {name : String} {input : Option String} {s t : σ} :
    Saves system env name input s t ↔
      name.isEmpty = false ∧ ∃ b u, (Button.ofInput input).run system s = (.ok b, s) ∧
        system.makeParents p s = (.ok (), u) ∧
        system.write p (Preset.listText (PresetStore.opened system p s ++ [⟨name, b⟩])).toUTF8 u =
          (.ok (), t) := by
  obtain ⟨warnings, hopen⟩ := Session.run_ofEnvironment hp system s
  constructor
  · rintro ⟨report, hrun, hexit⟩
    rw [run_perform hopen] at hrun
    obtain ⟨r, v, hsave⟩ : ∃ r v, (Session.savePreset ⟨.opened system env s, p,
        PresetStore.opened system p s⟩ name input).run system s = (r, v) := ⟨_, _, rfl⟩
    rw [Session.execute, hsave] at hrun
    cases hrun
    cases r with
    | error failure => cases hexit
    | ok session =>
      obtain ⟨b, store, hfound, hstore, -⟩ := Session.run_savePreset_eq_ok_iff.1 hsave
      obtain ⟨hname, -, u, hmake, hwrite⟩ := PresetStore.run_save_eq_ok_iff.1 hstore
      exact ⟨hname, b, u, hfound, hmake, hwrite⟩
  · rintro ⟨hname, b, u, hfound, hmake, hwrite⟩
    have hstore : (PresetStore.save ⟨p, PresetStore.opened system p s⟩ name b).run system s =
        (.ok ⟨p, PresetStore.opened system p s ++ [⟨name, b⟩]⟩, t) :=
      PresetStore.run_save_eq_ok_iff.2 ⟨hname, rfl, u, hmake, hwrite⟩
    have hsave : (Session.savePreset ⟨.opened system env s, p, PresetStore.opened system p s⟩
          name input).run system s =
        (.ok ⟨.opened system env s, p, PresetStore.opened system p s ++ [⟨name, b⟩]⟩, t) :=
      Session.run_savePreset_eq_ok_iff.2 ⟨b, _, hfound, hstore, rfl⟩
    refine ⟨{ exit := 0, warnings }, ?_, rfl⟩
    rw [run_perform hopen, Session.execute, hsave]
    rfl

end ButtonStyle

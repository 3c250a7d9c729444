import ButtonStyle.Proofs.Program
import ButtonStyle.Proofs.Requests

/-!
# What commands leave alone

A command that fails before it prints has printed nothing, and leaves the presets and their file as
they were; a command that saves no preset always leaves them so; and the clipboard is used at most
once, by an export that has found its button (`Session.execute_isCareful`).  For this the system has
to keep the file of the presets (`System.KeepsFile`), and to print and copy elsewhere
(`System.GivesOutBeside`).

So the presets of a session and those of its file are still the same after any commands, in whatever
way these end (`Session.InStep.afterAll`).
-/

namespace ButtonStyle

open Procedure

variable {α σ : Type}

/-- Whether a command saves a preset. -/
def Command.saves : Command → Bool
  | savePreset .. => true
  | _ => false

namespace PresetStore

variable {kind : Request → Bool}

theorem avoids_writeList (hmake : ∀ p, kind (.makeParents p) = false)
    (hwrite : ∀ p content, kind (.write p content) = false) (p : Path) (presets : List Preset) :
    (writeList p presets).Avoids kind := by
  refine Avoids.bind ⟨hmake _, fun _ => trivial⟩ ?_
  rintro (why | -)
  · exact avoids_pure _
  · refine Avoids.bind ⟨hwrite _ _, fun _ => trivial⟩ ?_
    rintro (why | -) <;> exact avoids_pure _

theorem avoids_save (hmake : ∀ p, kind (.makeParents p) = false)
    (hwrite : ∀ p content, kind (.write p content) = false) (store : PresetStore) (name : String)
    (b : Button) : (store.save name b).Avoids kind := by
  rw [save]
  split
  · exact avoids_pure _
  · refine (avoids_writeList hmake hwrite _ _).bind ?_
    rintro (fault | -) <;> exact avoids_pure _

end PresetStore

namespace Session

/-! ### Printing -/

theorem avoids_printLine {kind : Request → Bool} (h : ∀ text, kind (.print text) = false)
    (line : String) : (printLine line).Avoids kind :=
  ⟨h _, fun _ => trivial⟩

theorem avoids_printLines {kind : Request → Bool} (h : ∀ text, kind (.print text) = false)
    (lines : List String) : (printLines lines).Avoids kind := by
  induction lines with
  | nil => exact avoids_pure _
  | cons line lines ih =>
    refine (avoids_printLine h line).bind ?_
    rintro (failure | -)
    · exact avoids_pure _
    · exact ih

theorem run_printLine (system : System σ) (line : String) (s : σ) :
    (printLine line).run system s =
      ((system.print (line ++ "\n") s).1.mapError .output, (system.print (line ++ "\n") s).2) := rfl

theorem exists_of_mapError_eq_error {ε ε' : Type} {r : Except ε α} {f : ε → ε'} {e' : ε'}
    (h : r.mapError f = .error e') : ∃ e, e' = f e := by
  cases r with
  | error e => exact ⟨e, (Except.error.inj h).symm⟩
  | ok => cases h

/-- Lines fail to be printed only for reasons of the output. -/
theorem exists_of_printLines_eq_error {system : System σ} {lines : List String} {s : σ}
    {failure : Failure} (h : ((printLines lines).run system s).1 = .error failure) :
    ∃ why, failure = .output why := by
  induction lines generalizing s with
  | nil => cases h
  | cons line lines ih =>
    rw [printLines, run_bind, run_printLine] at h
    simp only at h
    cases hprint : (system.print (line ++ "\n") s).1 with
    | error why =>
      rw [hprint] at h
      exact ⟨why, (Except.error.inj h).symm⟩
    | ok =>
      rw [hprint] at h
      exact ih h

/-! ### Exports -/

section Export

variable {session : Session} {options : ExportOptions} {b : Button}

theorem onlyAsks_exported (session : Session) (options : ExportOptions) :
    (session.exported options).OnlyAsks := by
  rw [exported]
  split
  · exact Button.onlyAsks_load _
  · split <;> exact onlyAsks_pure _
  · exact onlyAsks_pure _

theorem deliver_of_copy (h : options.copy = true) : session.deliver options b =
    (do return (← copies (session.exportText options b)).mapError .clipboard) := by
  rw [deliver, if_pos h]

theorem deliver_of_not_copy (h : options.copy = false) :
    session.deliver options b = printLine (session.exportText options b) := by
  rw [deliver, if_neg (by simp [h])]

theorem avoids_deliver {kind : Request → Bool} (hprint : ∀ text, kind (.print text) = false)
    (hcopy : ∀ text, kind (.copy text) = false) : (session.deliver options b).Avoids kind := by
  cases h : options.copy with
  | true =>
    rw [deliver_of_copy h]
    exact ⟨hcopy _, fun _ => trivial⟩
  | false =>
    rw [deliver_of_not_copy h]
    exact avoids_printLine hprint _

theorem avoids_exportButton {kind : Request → Bool} (hholds : ∀ p, kind (.holds p) = false)
    (hread : ∀ p, kind (.read p) = false) (hprint : ∀ text, kind (.print text) = false)
    (hcopy : ∀ text, kind (.copy text) = false) : (session.exportButton options).Avoids kind := by
  refine ((onlyAsks_exported session options).avoids hholds hread).bind ?_
  rintro (failure | b)
  · exact avoids_pure _
  · exact avoids_deliver hprint hcopy

variable {system : System σ} {s : σ}

/-- The button of an export is found or not, and this leaves everything as it is. -/
theorem exported_cases (system : System σ) (session : Session) (options : ExportOptions) (s : σ) :
    (∃ failure, (session.exported options).run system s = (.error failure, s)) ∨
    (∃ b, (session.exported options).run system s = (.ok b, s)) := by
  rw [run_of_onlyAsks (onlyAsks_exported session options)]
  cases ((session.exported options).run system s).1 with
  | error failure => exact .inl ⟨failure, rfl⟩
  | ok b => exact .inr ⟨b, rfl⟩

/-- An export prints nothing until its button has been found. -/
theorem printed_exportButton (system : System σ) (session : Session) (options : ExportOptions)
    (s : σ) : (session.exportButton options).printed system s =
      match ((session.exported options).run system s).1 with
      | .ok b => (session.deliver options b).printed system s
      | .error _ => [] := by
  rw [exportButton, printed_bind_of_onlyAsks (onlyAsks_exported session options)]
  cases ((session.exported options).run system s).1 <;> rfl

/-- An export copies nothing until its button has been found. -/
theorem copied_exportButton (system : System σ) (session : Session) (options : ExportOptions)
    (s : σ) : (session.exportButton options).copied system s =
      match ((session.exported options).run system s).1 with
      | .ok b => (session.deliver options b).copied system s
      | .error _ => [] := by
  rw [exportButton, copied_bind_of_onlyAsks (onlyAsks_exported session options)]
  cases ((session.exported options).run system s).1 <;> rfl

/-- An export copies nothing, or its button has been found and its text is copied once. -/
theorem copied_exportButton_cases (system : System σ) (session : Session)
    (options : ExportOptions) (s : σ) : (session.exportButton options).copied system s = [] ∨
      options.copy = true ∧ ∃ b, (session.exported options).run system s = (.ok b, s) ∧
        (session.exportButton options).copied system s = [session.exportText options b] := by
  rw [copied_exportButton]
  rcases exported_cases system session options s with ⟨failure, hfail⟩ | ⟨b, hb⟩
  · rw [hfail]
    exact .inl rfl
  · rw [hb]
    cases hcopy : options.copy with
    | true =>
      refine .inr ⟨rfl, b, rfl, ?_⟩
      simp only [deliver_of_copy hcopy]
      rfl
    | false =>
      refine .inl ?_
      simp only [deliver_of_not_copy hcopy]
      rfl

/-- An export that fails for another reason than the output has printed nothing. -/
theorem printed_exportButton_of_failure {failure : Failure}
    (h : ((session.exportButton options).run system s).1 = .error failure)
    (houtput : ∀ why, failure ≠ .output why) :
    (session.exportButton options).printed system s = [] := by
  rw [printed_exportButton]
  rcases exported_cases system session options s with ⟨_, hfail⟩ | ⟨b, hb⟩
  · rw [hfail]
  · rw [run_exportButton hb] at h
    rw [hb]
    cases hcopy : options.copy with
    | true =>
      simp only [deliver_of_copy hcopy]
      rfl
    | false =>
      rw [deliver_of_not_copy hcopy, run_printLine] at h
      obtain ⟨why, hwhy⟩ := exists_of_mapError_eq_error h
      exact absurd hwhy (houtput why)

end Export

/-! ### Saves -/

theorem avoids_savePreset {kind : Request → Bool} (hholds : ∀ p, kind (.holds p) = false)
    (hread : ∀ p, kind (.read p) = false) (hmake : ∀ p, kind (.makeParents p) = false)
    (hwrite : ∀ p content, kind (.write p content) = false) (session : Session) (name : String)
    (input : Option String) : (session.savePreset name input).Avoids kind := by
  refine ((Button.onlyAsks_ofInput input).avoids hholds hread).bind ?_
  rintro (failure | b)
  · exact avoids_pure _
  · refine (PresetStore.avoids_save hmake hwrite session.store name b).bind ?_
    rintro (fault | store) <;> exact avoids_pure _

/-- **A command that saves a preset fails and leaves the file as it was, or the session and the file
get the longer list**, which is longer by a button that holds numbers only. -/
theorem savePreset_cases {system : System σ} {session : Session}
    (hkeeps : system.KeepsFile session.store.path) (name : String) (input : Option String) (s : σ) :
    (∃ failure t, (session.savePreset name input).run system s = (.error failure, t) ∧
      system.content? session.store.path t = system.content? session.store.path s) ∨
    (∃ b t, Button.shape.all Quantity.isFinite b = true ∧
      (session.savePreset name input).run system s =
        (.ok { session with store.presets := session.store.presets ++ [⟨name, b⟩] }, t) ∧
      system.content? session.store.path t =
        some (.ok (Preset.listText (session.store.presets ++ [⟨name, b⟩])).toUTF8)) := by
  have hasks := run_of_onlyAsks (Button.onlyAsks_ofInput input) system s
  cases hfound : ((Button.ofInput input).run system s).1 with
  | error failure =>
    rw [hfound] at hasks
    exact .inl ⟨failure, s, run_bind_eq_iff.2 ⟨_, s, hasks, rfl⟩, rfl⟩
  | ok b =>
    rw [hfound] at hasks
    rcases PresetStore.save_cases hkeeps name b s with
      ⟨fault, t, hsave, hcontent⟩ | ⟨t, -, hsave, hcontent⟩
    · refine .inl ⟨.store fault, t, run_bind_eq_iff.2 ⟨_, s, hasks, ?_⟩, hcontent⟩
      exact run_bind_eq_iff.2 ⟨_, t, hsave, rfl⟩
    · have hfinite := Button.isFinite_of_run_ofInput hasks
      refine .inr ⟨b, t, hfinite, run_bind_eq_iff.2 ⟨_, s, hasks, ?_⟩, hcontent⟩
      exact run_bind_eq_iff.2 ⟨_, t, hsave, rfl⟩

/-! ### Commands -/

section Command

variable {system : System σ} {session next : Session} {command : Command} {s t : σ}

/-- Carries out a command: the failure, if there is one, and the session and the state after it.  A
command that fails leaves the session as it was. -/
def carryOut (system : System σ) (session : Session) (command : Command) (s : σ) :
    Option Failure × Session × σ :=
  match (session.execute command).run system s with
  | (.ok next, t) => (none, next, t)
  | (.error failure, t) => (some failure, session, t)

theorem carryOut_eq_some_iff {failure : Failure} :
    session.carryOut system command s = (some failure, next, t) ↔
      next = session ∧ (session.execute command).run system s = (.error failure, t) := by
  rw [carryOut]
  rcases (session.execute command).run system s with ⟨failure' | next', t'⟩
  · simp only [Prod.mk.injEq, Option.some.injEq, Except.error.injEq]
    constructor
    · rintro ⟨rfl, rfl, rfl⟩
      exact ⟨rfl, rfl, rfl⟩
    · rintro ⟨rfl, rfl, rfl⟩
      exact ⟨rfl, rfl, rfl⟩
  · simp

/-- A command that saves no preset makes neither directories nor files. -/
theorem avoids_execute_of_not_saves (h : command.saves = false) :
    (session.execute command).Avoids Request.changesFiles := by
  cases command with
  | savePreset => cases h
  | exportButton options =>
    exact (avoids_exportButton (fun _ => rfl) (fun _ => rfl) (fun _ => rfl) fun _ => rfl).bind
      fun _ => avoids_pure _
  | printDefaults => exact (avoids_printLine (fun _ => rfl) _).bind fun _ => avoids_pure _
  | listPresets => exact (avoids_printLines (fun _ => rfl) _).bind fun _ => avoids_pure _

/-- A command that saves no preset gives back the session that it is carried out in. -/
theorem execute_eq_ok_of_not_saves (h : command.saves = false)
    (hrun : (session.execute command).run system s = (.ok next, t)) : next = session := by
  cases command with
  | savePreset => cases h
  | exportButton | printDefaults | listPresets =>
    obtain ⟨r, u, -, hmap⟩ := run_bind_eq_iff.1 hrun
    cases r with
    | error failure => cases hmap
    | ok =>
      cases hmap
      rfl

/-- **A command that saves no preset leaves the session and the file of the presets as they were.** -/
theorem carryOut_of_not_saves (hbeside : system.GivesOutBeside session.store.path)
    (h : command.saves = false) (s : σ) :
    ∃ failure? t, session.carryOut system command s = (failure?, session, t) ∧
      system.content? session.store.path t = system.content? session.store.path s := by
  have havoids : (session.execute command).Avoids Request.changesFiles :=
    avoids_execute_of_not_saves h
  have hcontent := content?_of_avoids hbeside havoids s
  obtain ⟨r, t, hrun⟩ : ∃ r t, (session.execute command).run system s = (r, t) := ⟨_, _, rfl⟩
  rw [carryOut, hrun]
  rw [hrun] at hcontent
  cases r with
  | error failure => exact ⟨some failure, t, rfl, hcontent⟩
  | ok next =>
    have hnext := execute_eq_ok_of_not_saves h hrun
    exact ⟨none, t, by rw [hnext], hcontent⟩

/-- **A command leaves the session and the file of the presets as they were, or has saved a
preset.** -/
theorem carryOut_cases (hkeeps : system.KeepsFile session.store.path)
    (hbeside : system.GivesOutBeside session.store.path) (command : Command) (s : σ) :
    (∃ failure? t, session.carryOut system command s = (failure?, session, t) ∧
      system.content? session.store.path t = system.content? session.store.path s) ∨
    (∃ name input b t, command = .savePreset name input ∧
      Button.shape.all Quantity.isFinite b = true ∧
      session.carryOut system command s =
        (none, { session with store.presets := session.store.presets ++ [⟨name, b⟩] }, t) ∧
      system.content? session.store.path t =
        some (.ok (Preset.listText (session.store.presets ++ [⟨name, b⟩])).toUTF8)) := by
  cases hsaves : command.saves with
  | false => exact .inl (carryOut_of_not_saves hbeside hsaves s)
  | true =>
    cases command with
    | savePreset name input =>
      rcases savePreset_cases hkeeps name input s with
        ⟨failure, t, hrun, hcontent⟩ | ⟨b, t, hfinite, hrun, hcontent⟩
      · exact .inl ⟨some failure, t, by rw [carryOut, execute, hrun], hcontent⟩
      · exact .inr ⟨name, input, b, t, rfl, hfinite, by rw [carryOut, execute, hrun], hcontent⟩
    | exportButton | printDefaults | listPresets => cases hsaves

theorem eq_error_of_map_eq_error {β : Type} {r : Except Failure α} {f : α → β} {failure : Failure}
    (h : r.map f = .error failure) : r = .error failure := by
  cases r with
  | error => exact congrArg Except.error (Except.error.inj h)
  | ok => cases h

/-- A command that fails for another reason than the output has printed nothing. -/
theorem printed_execute_of_failure {failure : Failure}
    (h : (session.execute command).run system s = (.error failure, t))
    (houtput : ∀ why, failure ≠ .output why) :
    (session.execute command).printed system s = [] := by
  cases command with
  | exportButton options =>
    obtain ⟨r, u, hrun, hmap⟩ := run_bind_eq_iff.1 h
    have hfail : ((session.exportButton options).run system s).1 = .error failure := by
      rw [hrun]
      exact eq_error_of_map_eq_error (Prod.mk.inj hmap).1
    rw [execute, printed_bind_pure, printed_exportButton_of_failure hfail houtput]
  | printDefaults =>
    obtain ⟨r, u, hrun, hmap⟩ := run_bind_eq_iff.1 h
    rw [run_printLine, eq_error_of_map_eq_error (Prod.mk.inj hmap).1] at hrun
    obtain ⟨why, hwhy⟩ := exists_of_mapError_eq_error (Prod.mk.inj hrun).1
    exact absurd hwhy (houtput why)
  | listPresets =>
    obtain ⟨r, u, hrun, hmap⟩ := run_bind_eq_iff.1 h
    rw [eq_error_of_map_eq_error (Prod.mk.inj hmap).1] at hrun
    obtain ⟨why, hwhy⟩ := exists_of_printLines_eq_error (congrArg Prod.fst hrun)
    exact absurd hwhy (houtput why)
  | savePreset name input =>
    exact printed_of_avoids (avoids_savePreset (fun _ => rfl) (fun _ => rfl) (fun _ => rfl)
      (fun _ _ => rfl) session name input) system s

/-- A command copies nothing, or is an export that has found its button and copies its text. -/
theorem copied_execute_cases (system : System σ) (session : Session) (command : Command) (s : σ) :
    (session.execute command).copied system s = [] ∨
      ∃ options b, command = .exportButton options ∧ options.copy = true ∧
        (session.exported options).run system s = (.ok b, s) ∧
        (session.execute command).copied system s = [session.exportText options b] := by
  cases command with
  | exportButton options =>
    rw [execute, copied_bind_pure]
    rcases copied_exportButton_cases system session options s with hnone | ⟨hcopy, b, hb, hone⟩
    · exact .inl hnone
    · exact .inr ⟨options, b, rfl, hcopy, hb, hone⟩
  | printDefaults =>
    exact .inl (copied_of_avoids ((avoids_printLine (fun _ => rfl) _).bind fun _ => avoids_pure _)
      system s)
  | listPresets =>
    exact .inl (copied_of_avoids ((avoids_printLines (fun _ => rfl) _).bind fun _ => avoids_pure _)
      system s)
  | savePreset name input =>
    exact .inl (copied_of_avoids (avoids_savePreset (fun _ => rfl) (fun _ => rfl) (fun _ => rfl)
      (fun _ _ => rfl) session name input) system s)

/-- What a command leaves alone, and when it uses the clipboard. -/
structure IsCareful (system : System σ) (session : Session) (command : Command) (s : σ) : Prop where
  /-- A command that fails for another reason than the output has printed nothing, and leaves the
  session and the file of the presets as they were. -/
  failed : ∀ failure next t, session.carryOut system command s = (some failure, next, t) →
    (∀ why, failure ≠ .output why) →
      (session.execute command).printed system s = [] ∧ next = session ∧
        system.content? session.store.path t = system.content? session.store.path s
  /-- A command that saves no preset leaves them so in any case. -/
  kept : ∀ failure? next t, session.carryOut system command s = (failure?, next, t) →
    command.saves = false → next = session ∧
      system.content? session.store.path t = system.content? session.store.path s
  /-- Only an export that is to copy and has found its button uses the clipboard, and does so once. -/
  copied : (session.execute command).copied system s = [] ∨
    ∃ options b, command = .exportButton options ∧ options.copy = true ∧
      (session.exported options).run system s = (.ok b, s) ∧
      (session.execute command).copied system s = [session.exportText options b]

/-- **A command that fails leaves everything as it was, one that saves nothing leaves the presets
alone, and only exports copy.** -/
theorem execute_isCareful (hkeeps : system.KeepsFile session.store.path)
    (hbeside : system.GivesOutBeside session.store.path) (command : Command) (s : σ) :
    session.IsCareful system command s where
  failed failure next t h houtput := by
    obtain ⟨-, hrun⟩ := carryOut_eq_some_iff.1 h
    refine ⟨printed_execute_of_failure hrun houtput, ?_⟩
    rcases carryOut_cases hkeeps hbeside command s with
      ⟨failure?, u, hsame, hcontent⟩ | ⟨name, input, b, u, -, -, hsaved, -⟩
    · cases h.symm.trans hsame
      exact ⟨rfl, hcontent⟩
    · cases h.symm.trans hsaved
  kept failure? next t h hsaves := by
    obtain ⟨_, u, hsame, hcontent⟩ := carryOut_of_not_saves hbeside hsaves s
    cases h.symm.trans hsame
    exact ⟨rfl, hcontent⟩
  copied := copied_execute_cases system session command s

/-- The session of a user whose presets are in the working directory, and who has none yet. -/
def withoutPresets : Session := ⟨{}, { path := Desk.presetsPath }⟩

/-- A desk with an empty list of presets, and a clipboard that takes nothing. -/
def refusingDesk : Desk :=
  { Desk.withPresets "[]".toUTF8 with refusal := some (.failed Clipboard.helper (.code 1)) }

/-- The standard button is to be copied, and the clipboard refuses it. -/
theorem execute_isCareful_refusingDesk :
    let command := Command.exportButton { copy := true }
    ∃ failure next t,
      withoutPresets.carryOut Desk.system command refusingDesk = (some failure, next, t) ∧
      (withoutPresets.execute command).printed Desk.system refusingDesk = [] ∧
      next = withoutPresets ∧ Desk.system.content? Desk.presetsPath t =
        Desk.system.content? Desk.presetsPath refusingDesk := by
  intro command
  have hrun : withoutPresets.carryOut Desk.system command refusingDesk =
      (some (.clipboard (.failed Clipboard.helper (.code 1))), withoutPresets, refusingDesk) := rfl
  have hcareful : withoutPresets.IsCareful Desk.system command refusingDesk :=
    execute_isCareful Desk.keepsFile_presetsPath (Desk.givesOutBeside _) command refusingDesk
  exact ⟨_, _, _, hrun, hcareful.failed _ _ _ hrun nofun⟩

end Command

/-! ### Many commands -/

/-- The presets of a session are those of its file. -/
def InStep (system : System σ) (session : Session) (s : σ) : Prop :=
  PresetStore.listOf session.store.path (system.content? session.store.path s) =
    .ok session.store.presets

/-- The session and the state after commands, whether they fail or not. -/
def afterAll (system : System σ) : List Command → Session → σ → Session × σ
  | [], session, s => (session, s)
  | command :: commands, session, s =>
    let (_, next, t) := session.carryOut system command s
    afterAll system commands next t

variable {system : System σ} {session : Session} {s : σ}

theorem path_carryOut (hkeeps : system.KeepsFile session.store.path)
    (hbeside : system.GivesOutBeside session.store.path) (command : Command) (s : σ) :
    (session.carryOut system command s).2.1.store.path = session.store.path := by
  rcases carryOut_cases hkeeps hbeside command s with
    ⟨_, t, hsame, -⟩ | ⟨_, _, b, t, -, -, hsaved, -⟩
  · rw [hsame]
  · rw [hsaved]

/-- A command keeps the presets of a session and those of its file the same. -/
theorem InStep.carryOut (h : session.InStep system s)
    (hkeeps : system.KeepsFile session.store.path)
    (hbeside : system.GivesOutBeside session.store.path) (command : Command) :
    (session.carryOut system command s).2.1.InStep system
      (session.carryOut system command s).2.2 := by
  rcases carryOut_cases hkeeps hbeside command s with
    ⟨_, t, hsame, hcontent⟩ | ⟨_, _, b, t, -, hfinite, hsaved, hcontent⟩
  · rw [hsame, InStep, hcontent]
    exact h
  · rw [hsaved, InStep, hcontent, PresetStore.listOf_text_iff]
    exact Preset.areFinite_concat.2 ⟨PresetStore.areFinite_of_listOf h, hfinite⟩

/-- **The presets of a session and those of its file stay the same through any commands.** -/
theorem InStep.afterAll (h : session.InStep system s)
    (hkeeps : system.KeepsFile session.store.path)
    (hbeside : system.GivesOutBeside session.store.path) (commands : List Command) :
    (afterAll system commands session s).1.InStep system
      (afterAll system commands session s).2 := by
  induction commands generalizing session s with
  | nil => exact h
  | cons command commands ih =>
    have hpath := path_carryOut hkeeps hbeside command s
    have hkeeps' : system.KeepsFile (session.carryOut system command s).2.1.store.path := by
      rwa [hpath]
    have hbeside' : system.GivesOutBeside (session.carryOut system command s).2.1.store.path := by
      rwa [hpath]
    exact ih (h.carryOut hkeeps hbeside command) hkeeps' hbeside'

end Session

end ButtonStyle

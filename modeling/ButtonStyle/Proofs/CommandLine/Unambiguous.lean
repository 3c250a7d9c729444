import Mathlib.Data.List.Nodup
import ButtonStyle.Proofs.CommandLine.Lines
import ButtonStyle.Session

/-!
# Exports are not ambiguous

A command line asks for an export only with the word for it and a line of options behind
(`Command.exists_of_ofArguments`).  **None that is accepted is ambiguous**
(`Command.unambiguous_of_ofArguments`): it does not name two buttons, no option can be given once
more, and the order in which the origins of a button (`Origin`) are tried is of no importance
(`Origin.findSome?_button?`).
-/

namespace ButtonStyle

open CommandLine

namespace CommandLine.Progress

/-! ### Which command lines export -/

theorem level_of_settle {p q : Progress} (h : p.settle = .ok q) : q.level = p.level := by
  rw [settle_eq_ok h]

theorem level_of_enter {p q : Progress} {s : Switch} {value : Option String}
    (h : p.enter s value = .ok q) : q.level = p.level := by
  obtain ⟨r, hr, h⟩ := bind_eq_ok_iff.1 h
  obtain ⟨e, -, h⟩ := bind_eq_ok_iff.1 h
  cases h
  show r.level = p.level
  exact level_of_settle hr

theorem level_of_meet {p q : Progress} {s : Switch} {value : Option String}
    (h : p.meet s value = .ok q) : q.level = p.level := by
  rw [meet.eq_def] at h
  split at h
  · exact level_of_enter h
  · cases h
  · exact level_of_enter h
  · obtain ⟨r, hr, h⟩ := bind_eq_ok_iff.1 h
    cases h
    show r.level = p.level
    exact level_of_settle hr

theorem level_of_meetName {p q : Progress} {a : String} (h : p.meetName a = .ok q) :
    q.level = p.level := by
  rw [meetName] at h
  split_ifs at h
  obtain ⟨r, hr, h⟩ := bind_eq_ok_iff.1 h
  cases h
  show r.level = p.level
  exact level_of_settle hr

/-- A step stays at its level. -/
theorem level_of_step {p q : Progress} {a : String} (h : p.step a = .ok q) :
    q.level = p.level := by
  rw [step] at h
  split_ifs at h with hseparated
  · exact level_of_meetName h
  · split at h
    · cases h
      rfl
    · split at h
      · exact level_of_meet h
      · cases h
    · split at h
      · exact level_of_meet h
      · cases h
    · rw [meetPlain] at h
      split at h
      · cases h
        rfl
      · exact level_of_meetName h

theorem mem_commands_of_command? {p : Progress} {a : String} {level : Level}
    (h : p.command? a = some level) : (a, level) ∈ p.level.commands := by
  rw [command?] at h
  split_ifs at h
  obtain ⟨before, after, hcommands, -⟩ := List.lookup_eq_some_iff.1 h
  rw [hcommands]
  exact List.mem_append_right before (List.mem_cons_self ..)

/-- An export is found below the top only, and nothing leads back there. -/
theorem level_of_command? {p : Progress} {a : String} {level : Level}
    (h : p.command? a = some level) :
    level ≠ .top ∧ (level = .exportButton → p.level = .top ∧ a = "export") := by
  have hall : ∀ above : Level, ∀ command ∈ above.commands, command.2 ≠ .top ∧
      (command.2 = .exportButton → above = .top ∧ command.1 = "export") := by
    intro above
    cases above <;> decide
  exact hall p.level _ (mem_commands_of_command? h)

/-- A line that ends as an export does so where exports are read, and does not name two buttons. -/
theorem exportButton_of_finish {p : Progress} {o : ExportOptions}
    (h : p.finish = .ok (.exportButton o)) :
    p.level = .exportButton ∧ (o.input = none ∨ o.preset = none) := by
  obtain ⟨q, hq, h⟩ := bind_eq_ok_iff.1 h
  rw [← level_of_settle hq]
  split at h
  · cases h
  · cases h
  · cases h
  · simp only at h
    split_ifs at h with hboth
    cases h
    exact ⟨‹_›, by simpa [imp_iff_not_or] using hboth⟩
  · cases h
  · cases h
  · split at h <;> cases h

/-- An export that is read does not name two buttons. -/
theorem source_of_read {p : Progress} {arguments : List String} {o : ExportOptions}
    (h : p.read arguments = .ok (.exportButton o)) : o.input = none ∨ o.preset = none := by
  induction arguments generalizing p with
  | nil => exact (exportButton_of_finish h).2
  | cons a rest ih =>
    rw [read] at h
    split at h
    · cases h
    · exact ih h
    · obtain ⟨q, -, h⟩ := bind_eq_ok_iff.1 h
      exact ih h

/-- What is read at another level is no export. -/
theorem read_ne_exportButton {p : Progress} (htop : p.level ≠ .top)
    (hexport : p.level ≠ .exportButton) (arguments : List String) (o : ExportOptions) :
    p.read arguments ≠ .ok (.exportButton o) := by
  induction arguments generalizing p with
  | nil => exact fun h => hexport (exportButton_of_finish h).1
  | cons a rest ih =>
    rw [read]
    split
    · intro h
      cases h
    · rename_i level _ hcommand
      obtain ⟨hlevel, hlevel'⟩ := level_of_command? hcommand
      exact ih hlevel fun h => htop (hlevel' h).1
    · intro h
      obtain ⟨q, hq, h⟩ := bind_eq_ok_iff.1 h
      rw [← level_of_step hq] at htop hexport
      exact ih htop hexport h

/-- Nothing but two dashes and commands goes on at the top. -/
theorem step_top {a : String} {q : Progress} (h : step { level := .top } a = .ok q) :
    q = { level := .top, separated := true } := by
  have hmeet {s : Switch} (value : Option String) (hs : s ∈ Level.top.switches) :
      ∃ usage, meet { level := .top } s value = .error usage := by
    have hswitch : s = .help ∨ s = .version := by simpa [Level.switches] using hs
    rcases hswitch with rfl | rfl <;> cases value <;> exact ⟨_, rfl⟩
  rw [step, if_neg Bool.false_ne_true] at h
  split at h
  · cases h
    rfl
  · split at h
    · rename_i hfind
      obtain ⟨usage, husage⟩ := hmeet _ (List.mem_of_find?_eq_some hfind)
      rw [husage] at h
      cases h
    · cases h
  · split at h
    · rename_i hfind
      obtain ⟨usage, husage⟩ := hmeet _ (List.mem_of_find?_eq_some hfind)
      rw [husage] at h
      cases h
    · cases h
  · cases h

/-- After two dashes at the top there is no command. -/
theorem read_top_separated (arguments : List String) (command : Command) :
    read { level := .top, separated := true } arguments ≠ .ok command := by
  cases arguments with
  | nil => exact nofun
  | cons a rest => exact nofun

end CommandLine.Progress

/-- **A command line asks for an export only with the word for it and options behind.** -/
theorem Command.exists_of_ofArguments {arguments : List String} {o : ExportOptions}
    (h : Command.ofArguments arguments = .ok (.exportButton o)) : ∃ line,
      arguments = "export" :: line ∧
      (Progress.exporting {}).read line = .ok (.exportButton o) := by
  rw [Command.ofArguments] at h
  cases arguments with
  | nil => cases h
  | cons a rest =>
    rw [Progress.read] at h
    split at h
    · cases h
    · rename_i level _ hcommand
      obtain ⟨htop, hexport⟩ := Progress.level_of_command? hcommand
      by_cases hlevel : level = .exportButton
      · obtain ⟨-, rfl⟩ := hexport hlevel
        rw [hlevel] at h
        exact ⟨rest, rfl, h⟩
      · exact absurd h (Progress.read_ne_exportButton htop hlevel rest o)
    · obtain ⟨q, hq, h⟩ := bind_eq_ok_iff.1 h
      rw [Progress.step_top hq] at h
      exact absurd h (Progress.read_top_separated rest _)

/-! ### Where the button comes from -/

/-- Where the button of an export can come from. -/
inductive Origin
  | input
  | preset
  | standard
deriving DecidableEq

/-- The button from an origin, if the options of an export ask for it.  They ask for the standard
button by naming no other. -/
def Origin.button? (session : Session) (o : ExportOptions) :
    Origin → Option (Procedure (Except Failure Button))
  | .input => o.input.map fun path => Button.load ⟨path⟩
  | .preset => o.preset.map fun name =>
    match session.store.find? name with
    | some found => return .ok found.button
    | none => return .error (.presetUnknown name)
  | .standard => if o.input.isNone && o.preset.isNone then some (return .ok .standard) else none

/-- What is found first is the same in any order if there is only one thing to find. -/
theorem findSome?_eq_of_mem {α β : Type} {f : α → Option β} {a : α} {l : List α} (ha : a ∈ l)
    (hl : ∀ b ∈ l, b ≠ a → f b = none) : l.findSome? f = f a := by
  induction l with
  | nil => cases ha
  | cons b l ih =>
    have hrest : ∀ c ∈ l, c ≠ a → f c = none := fun c hc => hl c (List.mem_cons_of_mem b hc)
    rw [List.findSome?_cons]
    by_cases hb : b = a
    · subst hb
      cases hfb : f b with
      | some y => rfl
      | none =>
        by_cases hmem : b ∈ l
        · rw [ih hmem hrest, hfb]
        · exact List.findSome?_eq_none_iff.2 fun c hc => hrest c hc fun h => hmem (h ▸ hc)
    · rw [hl b (List.mem_cons_self ..) hb]
      exact ih ((List.mem_cons.1 ha).resolve_left (Ne.symm hb)) hrest

/-- **Unless options name two buttons, the order in which origins are tried is of no
importance.** -/
theorem Origin.findSome?_button? (session : Session) {o : ExportOptions}
    (hsource : o.input = none ∨ o.preset = none) {order : List Origin}
    (horder : order.Perm [.input, .preset, .standard]) :
    order.findSome? (Origin.button? session o) = some (session.exported o) := by
  have hmem (s : Origin) : s ∈ order := horder.mem_iff.2 (by cases s <;> decide)
  cases hinput : o.input with
  | some path =>
    have hpreset : o.preset = none := hsource.resolve_left (by simp [hinput])
    rw [findSome?_eq_of_mem (hmem .input) fun s _ hs => ?_]
    · simp [Origin.button?, Session.exported, hinput]
    · cases s <;> simp_all [Origin.button?]
  | none =>
    cases hpreset : o.preset with
    | some name =>
      rw [findSome?_eq_of_mem (hmem .preset) fun s _ hs => ?_]
      · simp only [Origin.button?, Session.exported, hinput, hpreset]
        rfl
      · cases s <;> simp_all [Origin.button?]
    | none =>
      rw [findSome?_eq_of_mem (hmem .standard) fun s _ hs => ?_]
      · simp [Origin.button?, Session.exported, hinput, hpreset]
      · cases s <;> simp_all [Origin.button?]

/-- **No command line that is accepted for an export is ambiguous.**  It does not name two buttons;
it is a line of the options that are given, none of which can be given once more, with whatever
value and wherever between the others; and the order in which origins of the button are tried is of
no importance. -/
theorem Command.unambiguous_of_ofArguments {arguments : List String} {o : ExportOptions}
    (h : Command.ofArguments arguments = .ok (.exportButton o)) :
    (o.input = none ∨ o.preset = none) ∧
    (∃ switches line, Line switches line ∧ arguments = "export" :: line ∧
      ∀ s, s ∈ switches ↔ o.gives s = true) ∧
    (∀ {first second : List Switch} {before after extra : List String} {x : Setting},
      Line first before → Line second after → arguments = "export" :: (before ++ after) →
      o.gives x.switch = true → Spells x extra →
      ∃ usage, Command.ofArguments ("export" :: (before ++ (extra ++ after))) = .error usage) ∧
    ∀ (session : Session) {order : List Origin}, order.Perm [.input, .preset, .standard] →
      order.findSome? (Origin.button? session o) = some (session.exported o) := by
  obtain ⟨line, rfl, hread⟩ := Command.exists_of_ofArguments h
  have hsource := Progress.source_of_read hread
  have hgiven {switches : List Switch} (hline : Line switches line) (s : Switch) :
      s ∈ switches ↔ o.gives s = true := by
    have hnone : ({} : Entered).options.gives s = false := by cases s <;> rfl
    rw [hline.gives_of_read hread, hnone]
    simp
  refine ⟨hsource, ?_, ?_, fun session order => Origin.findSome?_button? session hsource⟩
  · obtain ⟨switches, hline⟩ := exists_line_of_read hread
    exact ⟨switches, line, hline, rfl, hgiven hline⟩
  · intro first second before after extra x hbefore hafter harguments hgives hextra
    obtain ⟨-, rfl⟩ := List.cons.inj harguments
    have hmem : x.switch ∈ first ++ second := (hgiven (hbefore.append hafter) x.switch).2 hgives
    have hline : Line (first ++ x.switch :: second) (before ++ (extra ++ after)) :=
      hbefore.append (.option hextra hafter)
    cases hagain : Command.ofArguments ("export" :: (before ++ (extra ++ after))) with
    | error usage => exact ⟨usage, rfl⟩
    | ok command =>
      rw [Command.ofArguments_export] at hagain
      obtain ⟨hnodup, -⟩ := hline.nodup_of_read hagain
      exact absurd hmem (List.nodup_cons.1 (List.nodup_middle.1 hnodup)).1

/-- The file of the button cannot be named once more, even if two dashes end the line. -/
theorem Command.unambiguous_of_ofArguments_twice :
    Command.ofArguments ["export", "--input=a.json", "--preview-id", "--"] =
      .ok (.exportButton ⟨some "a.json", none, none, some "preview-button", false⟩) ∧
    ∃ usage, Command.ofArguments
      ["export", "--input=a.json", "--preview-id", "-ib.json", "--"] = .error usage := by
  have h : Command.ofArguments ["export", "--input=a.json", "--preview-id", "--"] =
      .ok (.exportButton ⟨some "a.json", none, none, some "preview-button", false⟩) := by decide
  have hjoined : "--input" ++ "=" ++ "a.json" = "--input=a.json" := by decide
  have hinput : Spells ⟨.input, some "a.json"⟩ ["--input=a.json"] := by
    rw [← hjoined]
    exact .joined "a.json" (by decide) (by decide)
  have hid : Spells ⟨.previewId, none⟩ ["--preview-id"] := .bare (by decide)
  have hagain : Spells ⟨.input, some "b.json"⟩ ["-ib.json"] :=
    .attached (c := 'i') (d := 'b') (by decide) (by decide) (by decide)
  have hbefore : Line [.input, .previewId] ["--input=a.json", "--preview-id"] :=
    .option hinput (.option hid .nil)
  exact ⟨h, (Command.unambiguous_of_ofArguments h).2.2.1 hbefore (.dashes .nil) rfl rfl hagain⟩

end ButtonStyle

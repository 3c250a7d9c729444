import ButtonStyle.Button.Edit
import ButtonStyle.Proofs.ClassList.Spacing
import ButtonStyle.Proofs.Css.Stylesheet
import ButtonStyle.Proofs.Session.Commands

/-!
# What an export gives out

An export is about a button (`Session.Chooses`), and has a text that is settled by the options and
the preferences together (`Session.IsExport`).  Main statement: **the same text is printed as a line
or copied** (`Session.export_delivers`).  None of the texts ends in a newline
(`Button.getLast?_generate`, `Session.getLast?_exportText`), so the line that is printed ends in just
one.
-/

namespace ButtonStyle

open Procedure

variable {σ : Type}

/-! ### How the texts end -/

/-- Replacing a name keeps the last character of a text if it is not one of the name. -/
theorem Css.exists_replaceName_eq_append {name new : List Char} {c : Char} (hc : c ∉ name)
    (u : List Char) : ∃ v, replaceName name new (u ++ [c]) = v ++ [c] := by
  generalize hcs : u ++ [c] = cs
  fun_induction replaceName name new cs generalizing u with
  | case1 => exact absurd hcs (by simp)
  | case2 d cs h rest ih =>
    -- The name stands at the front, and the last character is not in it.
    have hfront : name <+: u := by
      refine prefix_of_prefix_append_cons (v := []) hc ?_
      rw [hcs]
      exact List.isPrefixOf_iff_prefix.1 h.2
    obtain ⟨u', rfl⟩ := hfront
    have hrest : u' ++ [c] = rest := by
      show u' ++ [c] = (d :: cs).drop name.length
      rw [← hcs, List.append_assoc, List.drop_left]
    obtain ⟨v, hv⟩ := ih u' hrest
    rw [hv, ← List.append_assoc]
    exact ⟨_, rfl⟩
  | case3 d cs h ih =>
    cases u with
    | nil =>
      obtain ⟨rfl, rfl⟩ := List.cons.inj hcs
      exact ⟨[], by rw [replaceName]; rfl⟩
    | cons e u =>
      obtain ⟨rfl, htail⟩ := List.cons.inj hcs
      obtain ⟨v, hv⟩ := ih u htail
      rw [hv, ← List.cons_append]
      exact ⟨_, rfl⟩

namespace Button

theorem exists_stylesheet_eq_append (b : Button) : ∃ vs, b.stylesheet.toList = vs ++ ['\x7d'] := by
  rw [b.stylesheet_eq_sheet]
  exact Css.exists_sheet_eq_append _

/-- None of the texts of a button ends in a newline. -/
theorem getLast?_generate (b : Button) (f : Format) :
    (b.generate f).toList.getLast? ≠ some '\n' := by
  cases f with
  | css =>
    obtain ⟨vs, hvs⟩ := b.exists_stylesheet_eq_append
    rw [generate, hvs, List.getLast?_concat]
    decide
  | tailwind =>
    intro hlast
    have hblank := (ClassName.isSpaced_intercalate b.areClasses_classes).back '\n' hlast
    exact absurd hblank (by decide)
  | tokens =>
    obtain ⟨vs, hvs⟩ := Json.pretty_object_eq_append 0 _
    rw [generate, tokens, Json.toPretty, String.toList_ofList, tokenDocument, hvs,
      List.getLast?_concat]
    decide

/-- A stylesheet that is scoped does not end in a newline, whatever id it is scoped to. -/
theorem getLast?_scopedTo (b : Button) (id : String) :
    (Css.scopedTo id b.stylesheet).toList.getLast? ≠ some '\n' := by
  have hbrace : '\x7d' ∉ Css.buttonSelector.toList := by decide
  obtain ⟨vs, hvs⟩ := b.exists_stylesheet_eq_append
  obtain ⟨ws, hws⟩ : ∃ ws, Css.replaceName Css.buttonSelector.toList ('#' :: id.toList)
      (vs ++ ['\x7d']) = ws ++ ['\x7d'] := Css.exists_replaceName_eq_append hbrace vs
  rw [Css.scopedTo, String.toList_ofList, hvs, hws, List.getLast?_concat]
  decide

end Button

/-! ### The button of an export -/

namespace Session

/-- The button that an export is about: that of a file that can be read, or else that of a preset, or
else the standard button. -/
inductive Chooses (system : System σ) (session : Session) (options : ExportOptions) (s : σ) :
    Button → Prop
  | input {path text : String} {b : Button} : options.input = some path →
      system.read ⟨path⟩ s = .ok text.toUTF8 → Button.shape.ofString text = .ok b →
      Chooses system session options s b
  | preset {name : String} {preset : Preset} : options.input = none → options.preset = some name →
      session.store.find? name = some preset → Chooses system session options s preset.button
  | standard : options.input = none → options.preset = none →
      Chooses system session options s .standard

variable {system : System σ} {session : Session} {options : ExportOptions} {s : σ} {b : Button}

theorem Chooses.run_exported (h : session.Chooses system options s b) :
    (session.exported options).run system s = (.ok b, s) := by
  cases h with
  | input hinput hfile hb =>
    simp only [exported, hinput]
    exact Button.run_load hfile hb
  | preset hinput hpreset hfind =>
    simp only [exported, hinput, hpreset, hfind]
    rfl
  | standard hinput hpreset =>
    simp only [exported, hinput, hpreset]
    rfl

/-- A button is all that an export needs to be about it. -/
theorem chooses_iff : session.Chooses system options s b ↔
    (session.exported options).run system s = (.ok b, s) := by
  refine ⟨Chooses.run_exported, fun h => ?_⟩
  cases hinput : options.input with
  | some path =>
    simp only [exported, hinput] at h
    obtain ⟨text, hfile, hb⟩ := Button.exists_of_run_load h
    exact .input hinput hfile hb
  | none =>
    cases hpreset : options.preset with
    | some name =>
      simp only [exported, hinput, hpreset] at h
      cases hfind : session.store.find? name with
      | some preset =>
        rw [hfind] at h
        cases h
        exact .preset hinput hpreset hfind
      | none =>
        rw [hfind] at h
        cases h
    | none =>
      simp only [exported, hinput, hpreset] at h
      have hb : Button.standard = b := Except.ok.inj (Prod.mk.inj h).1
      rw [← hb]
      exact .standard hinput hpreset

/-- The button of an export is settled by the presets, the file and the name of a preset. -/
theorem Chooses.congr (h : session.Chooses system options s b) {session' : Session}
    {options' : ExportOptions} (hstore : session'.store = session.store)
    (hinput : options'.input = options.input) (hpreset : options'.preset = options.preset) :
    session'.Chooses system options' s b := by
  cases h with
  | input hpath hfile hb => exact .input (hinput.trans hpath) hfile hb
  | preset hpath hname hfind =>
    refine .preset (hinput.trans hpath) (hpreset.trans hname) ?_
    rw [hstore]
    exact hfind
  | standard hpath hname => exact .standard (hinput.trans hpath) (hpreset.trans hname)

/-! ### The text of an export -/

/-- The text of an export: its format is that of the options, or else that of the preferences, or else
`css`, and so for the element that a stylesheet is scoped to.  Only stylesheets are scoped. -/
structure IsExport (session : Session) (options : ExportOptions) (b : Button) (f : Format)
    (text : String) : Prop where
  format : options.format = some f ∨ options.format = none ∧
    (session.preferences.format = some f ∨ session.preferences.format = none ∧ f = .css)
  others : f ≠ .css → text = b.generate f
  element : f = .css → ∀ id, options.previewId = some id ∨
    options.previewId = none ∧ session.preferences.previewId = some id →
      text = Css.scopedTo id b.stylesheet
  noElement : f = .css → options.previewId = none → session.preferences.previewId = none →
    text = b.stylesheet

theorem exportText_of_ne_css (h : session.format options ≠ .css) :
    session.exportText options b = b.generate (session.format options) := by
  rw [exportText]
  split
  · contradiction
  · rfl

theorem exportText_css (h : session.format options = .css) : session.exportText options b =
    match options.previewId.or session.preferences.previewId with
    | some id => Css.scopedTo id b.stylesheet
    | none => b.stylesheet := by
  rw [exportText, h]
  cases options.previewId.or session.preferences.previewId <;> rfl

theorem isExport_exportText (session : Session) (options : ExportOptions) (b : Button) :
    session.IsExport options b (session.format options) (session.exportText options b) where
  format := by
    rw [Session.format]
    cases options.format with
    | some f => exact .inl rfl
    | none =>
      cases session.preferences.format with
      | some f => exact .inr ⟨rfl, .inl rfl⟩
      | none => exact .inr ⟨rfl, .inr ⟨rfl, rfl⟩⟩
  others h := exportText_of_ne_css h
  element h id hid := by
    rw [exportText_css h]
    rcases hid with hid | ⟨hnone, hid⟩
    · rw [hid, Option.some_or]
    · rw [hnone, hid, Option.none_or]
  noElement h hnone hnone' := by
    rw [exportText_css h, hnone, hnone', Option.none_or]

/-- The text of an export does not end in a newline. -/
theorem getLast?_exportText (session : Session) (options : ExportOptions) (b : Button) :
    (session.exportText options b).toList.getLast? ≠ some '\n' := by
  by_cases hf : session.format options = .css
  · rw [exportText_css hf]
    split
    · exact b.getLast?_scopedTo _
    · exact b.getLast?_generate .css
  · rw [exportText_of_ne_css hf]
    exact b.getLast?_generate _

/-! ### Printing and copying -/

theorem printed_execute_export (h : session.Chooses system options s b) :
    (session.execute (.exportButton options)).printed system s =
      (session.deliver options b).printed system s := by
  rw [execute, printed_bind_pure, printed_exportButton, h.run_exported]

theorem copied_execute_export (h : session.Chooses system options s b) :
    (session.execute (.exportButton options)).copied system s =
      (session.deliver options b).copied system s := by
  rw [execute, copied_bind_pure, copied_exportButton, h.run_exported]

theorem run_execute_export (h : session.Chooses system options s b) :
    (session.execute (.exportButton options)).run system s =
      (((session.deliver options b).run system s).1.map fun () => session,
        ((session.deliver options b).run system s).2) := by
  rw [execute, run_bind, run_exportButton h.run_exported]
  rfl

/-- A text is printed as a line, and nothing is copied. -/
structure Prints (system : System σ) (session : Session) (command : Command) (s : σ)
    (text : String) : Prop where
  printed : (session.execute command).printed system s = [text ++ "\n"]
  copied : (session.execute command).copied system s = []
  /-- An output that takes the line lets the command succeed. -/
  run : ∀ t, system.print (text ++ "\n") s = (.ok (), t) →
    (session.execute command).run system s = (.ok session, t)

/-- A text is copied, and nothing is printed. -/
structure Copies (system : System σ) (session : Session) (command : Command) (s : σ)
    (text : String) : Prop where
  printed : (session.execute command).printed system s = []
  copied : (session.execute command).copied system s = [text]
  /-- The command ends as the clipboard answers. -/
  run : ∀ r t, system.copy text s = (r, t) →
    (session.execute command).run system s =
      ((r.mapError Failure.clipboard).map fun () => session, t)

theorem prints_export (h : session.Chooses system options s b) (hcopy : options.copy = false) :
    session.Prints system (.exportButton options) s (session.exportText options b) where
  printed := by
    rw [printed_execute_export h, deliver_of_not_copy hcopy]
    rfl
  copied := by
    rw [copied_execute_export h, deliver_of_not_copy hcopy]
    rfl
  run t hprint := by
    rw [run_execute_export h, deliver_of_not_copy hcopy, run_printLine, hprint]
    rfl

theorem copies_export (h : session.Chooses system options s b) (hcopy : options.copy = true) :
    session.Copies system (.exportButton options) s (session.exportText options b) where
  printed := by
    rw [printed_execute_export h, deliver_of_copy hcopy]
    rfl
  copied := by
    rw [copied_execute_export h, deliver_of_copy hcopy]
    rfl
  run r t hrun := by
    have hcopies : (copies (session.exportText options b)).run system s = (r, t) := hrun
    rw [run_execute_export h, deliver_of_copy hcopy, run_bind, hcopies]
    rfl

/-- What is not a stylesheet is printed as the same text for all ids of elements. -/
theorem prints_export_of_ne_css (h : session.Chooses system options s b)
    (hf : session.format options ≠ .css) (id id' : Option String) :
    Session.Prints system { session with preferences.previewId := id }
      (.exportButton { options with previewId := id', copy := false }) s
      (session.exportText options b) := by
  have htext : Session.exportText { session with preferences.previewId := id }
      { options with previewId := id', copy := false } b = session.exportText options b := by
    rw [exportText_of_ne_css hf]
    exact exportText_of_ne_css hf
  rw [← htext]
  exact prints_export (h.congr rfl rfl rfl) rfl

/-- **An export prints its text as a line, or copies it.**  The text is the same in both cases, and
the line ends in just one newline.  Only the text of a stylesheet depends on the element that it is
to be scoped to. -/
theorem export_delivers (h : session.Chooses system options s b) :
    ∃ f text, session.IsExport options b f text ∧ text.toList.getLast? ≠ some '\n' ∧
      session.Prints system (.exportButton { options with copy := false }) s text ∧
      session.Copies system (.exportButton { options with copy := true }) s text ∧
      (f ≠ .css → ∀ id id', Session.Prints system { session with preferences.previewId := id }
        (.exportButton { options with previewId := id', copy := false }) s text) := by
  refine ⟨_, _, isExport_exportText session options b, getLast?_exportText session options b,
    ?_, ?_, fun hf id id' => prints_export_of_ne_css h hf id id'⟩
  · exact prints_export (h.congr rfl rfl rfl) rfl
  · exact copies_export (h.congr rfl rfl rfl) rfl

/-- A preset is exported as a stylesheet, and the preferences say for which element. -/
theorem export_delivers_preset :
    let b := Button.standard.setPadding none 0
    let session : Session :=
      ⟨{ format := some .tailwind, previewId := some "demo" },
        ⟨Desk.presetsPath, [⟨"primary", .standard⟩, ⟨"flat", b⟩]⟩⟩
    let options : ExportOptions := { preset := some "flat", format := some .css }
    let text := Css.scopedTo "demo" b.stylesheet
    session.Chooses Desk.system options {} b ∧
      session.Prints Desk.system (.exportButton options) {} text ∧
      session.Copies Desk.system (.exportButton { options with copy := true }) {} text := by
  intro b session options text
  have hfind : session.store.find? "flat" = some ⟨"flat", b⟩ := rfl
  have hchooses : session.Chooses Desk.system options {} b := .preset rfl rfl hfind
  obtain ⟨f, text', hexport, -, hprints, hcopies, -⟩ := export_delivers hchooses
  have hf : f = .css := by
    rcases hexport.format with h | ⟨h, -⟩
    · exact (Option.some.inj h).symm
    · cases h
  have htext : text' = text := hexport.element hf "demo" (.inr ⟨rfl, rfl⟩)
  rw [htext] at hprints hcopies
  exact ⟨hchooses, hprints, hcopies⟩

end Session

end ButtonStyle

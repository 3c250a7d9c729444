import ButtonStyle.Button.Standard
import ButtonStyle.Proofs.Preset.Store

/-!
# Opening a store and saving a preset

A store that is opened reads its file, and goes on without presets if that fails.  A preset that is
then saved is added to the list of the file, if the file holds one, and else takes the place of
whatever is in the file (`open_and_save`).  So a file that cannot be read is not safe from a save
(`broken_file_is_overwritten`).
-/

namespace ButtonStyle

namespace PresetStore

variable {σ : Type}

/-- Opens the store of a path, whether its file can be read or not, and saves a preset. -/
def openAndSave (p : Path) (name : String) (b : Button) :
    Procedure (Except StoreFault PresetStore) := do
  let (store, _) ← reload { path := p }
  store.save name b

/-- The list of a store that has just been opened. -/
def opened (system : System σ) (p : Path) (s : σ) : List Preset :=
  match ((readList p).run system s).1 with
  | .ok presets => presets
  | .error _ => []

theorem run_openAndSave (system : System σ) (p : Path) (name : String) (b : Button) (s : σ) :
    (openAndSave p name b).run system s =
      (PresetStore.save ⟨p, opened system p s⟩ name b).run system s := by
  rw [openAndSave, Procedure.run_bind, run_reload, opened, run_readList]
  simp only
  cases listOf p (system.content? p s) <;> rfl

/-- A store that has just been opened holds numbers only. -/
theorem areFinite_opened (system : System σ) (p : Path) (s : σ) :
    Preset.AreFinite (opened system p s) := by
  rw [opened, run_readList]
  cases hlist : listOf p (system.content? p s) with
  | ok presets => exact areFinite_of_listOf hlist
  | error fault => exact Preset.areFinite_nil

/-- **A preset that is saved in a store just opened is added to the list of the file, or is all
there is in the file if it held no list that could be read.**  The list is read back from the file
exactly if the button that was saved holds numbers only.  If the save fails, the file is as it
was. -/
theorem open_and_save {system : System σ} {p : Path} (hkeeps : system.KeepsFile p) (name : String)
    (b : Button) (s : σ) :
    (∃ fault t, (openAndSave p name b).run system s = (.error fault, t) ∧
      system.content? p t = system.content? p s) ∨
    (∃ store t, (openAndSave p name b).run system s = (.ok store, t) ∧
      system.content? p t = some (.ok (Preset.listText store.presets).toUTF8) ∧
      (∀ old, (readList p).run system s = (.ok old, s) → store.presets = old ++ [⟨name, b⟩]) ∧
      (∀ fault, (readList p).run system s = (.error fault, s) → store.presets = [⟨name, b⟩]) ∧
      ((readList p).run system t = (.ok store.presets, t) ↔
        Button.shape.all Quantity.isFinite b = true)) := by
  rw [run_openAndSave]
  have hkeeps' : system.KeepsFile (PresetStore.mk p (opened system p s)).path := hkeeps
  rcases save_cases hkeeps' name b s with
    ⟨fault, t, hrun, hcontent⟩ | ⟨t, -, hrun, hcontent⟩
  · exact .inl ⟨fault, t, hrun, hcontent⟩
  · refine .inr ⟨_, t, hrun, hcontent, fun old hold => ?_, fun fault hfault => ?_, ?_⟩
    · simp only [opened, hold]
    · simp only [opened, hfault, List.nil_append]
    · rw [run_readList, hcontent, Prod.mk.injEq, and_iff_left rfl, listOf_text_iff,
        Preset.areFinite_concat, and_iff_right (areFinite_opened system p s)]

/-! ### A file that cannot be read -/

/-- Saving a preset in a store just opened fails and leaves the file alone, or adds the preset to the
list that the file held. -/
def SavesSafely (system : System σ) (p : Path) (name : String) (b : Button) (s : σ) : Prop :=
  (∃ fault t, (openAndSave p name b).run system s = (.error fault, t) ∧
    system.content? p t = system.content? p s) ∨
  (∃ store t old, (openAndSave p name b).run system s = (.ok store, t) ∧
    (readList p).run system s = (.ok old, s) ∧
    (readList p).run system t = (.ok (old ++ [⟨name, b⟩]), t))

/-- A file of presets that breaks off. -/
def broken : ByteArray := "[\x7b \"name\": \"broken\", ".toUTF8

theorem listOf_broken (p : Path) : ∃ fault, listOf p (some (.ok broken)) = .error fault := by
  rw [listOf, broken, fromUTF8?_toUTF8]
  simp only
  have herror : (Preset.ofListText "[\x7b \"name\": \"broken\", ").isOk = false := by
    decide +kernel
  cases h : Preset.ofListText "[\x7b \"name\": \"broken\", " with
  | error fault => exact ⟨_, rfl⟩
  | ok presets =>
    rw [h] at herror
    cases herror

/-- On a desk with a file of presets a save does not fail. -/
theorem run_save_withPresets (presets : List Preset) (name : String) (hname : name.isEmpty = false)
    (b : Button) (content : ByteArray) :
    (PresetStore.save ⟨Desk.presetsPath, presets⟩ name b).run Desk.system
        (Desk.withPresets content) =
      (.ok ⟨Desk.presetsPath, presets ++ [⟨name, b⟩]⟩,
        Desk.withPresets (Preset.listText (presets ++ [⟨name, b⟩])).toUTF8) := by
  rw [save, if_neg (by simp [hname])]
  simp only
  rw [Procedure.run_bind, writeList, Procedure.run_bind, run_makesParents,
    Desk.makeParents_withPresets]
  simp only
  rw [Procedure.run_bind, run_writeText, Desk.write_withPresets]
  rfl

theorem run_openAndSave_broken (name : String) (hname : name.isEmpty = false) (b : Button) :
    (openAndSave Desk.presetsPath name b).run Desk.system (Desk.withPresets broken) =
      (.ok ⟨Desk.presetsPath, [⟨name, b⟩]⟩,
        Desk.withPresets (Preset.listText [⟨name, b⟩]).toUTF8) := by
  obtain ⟨fault, hfault⟩ := listOf_broken Desk.presetsPath
  have hopened : opened Desk.system Desk.presetsPath (Desk.withPresets broken) = [] := by
    rw [opened, run_readList, Desk.content?_withPresets, hfault]
  rw [run_openAndSave, hopened, run_save_withPresets [] name hname]
  rfl

/-- After a save in a store with a broken file, the file holds just the preset that was saved. -/
theorem open_and_save_broken :
    ∃ store t, (openAndSave Desk.presetsPath "new" .standard).run Desk.system
        (Desk.withPresets broken) = (.ok store, t) ∧
      (readList Desk.presetsPath).run Desk.system t = (.ok [⟨"new", .standard⟩], t) := by
  obtain ⟨fault, hfault⟩ := listOf_broken Desk.presetsPath
  rcases open_and_save Desk.keepsFile_presetsPath "new" .standard (Desk.withPresets broken) with
    ⟨_, _, hrun, -⟩ | ⟨store, t, hrun, -, -, hlost, hread⟩
  · rw [run_openAndSave_broken "new" (by decide)] at hrun
    cases hrun
  · have hpresets := hlost fault (by rw [run_readList, Desk.content?_withPresets, hfault])
    rw [hpresets] at hread
    exact ⟨store, t, hrun, hread.2 Button.isFinite_standard⟩

/-- **A file that cannot be read is overwritten.** -/
theorem broken_file_is_overwritten :
    ¬ SavesSafely Desk.system Desk.presetsPath "new" .standard (Desk.withPresets broken) := by
  obtain ⟨fault, hfault⟩ := listOf_broken Desk.presetsPath
  rw [SavesSafely, run_openAndSave_broken "new" (by decide)]
  rintro (⟨_, _, hrun, -⟩ | ⟨_, _, old, -, hold, -⟩)
  · cases hrun
  · rw [run_readList, Desk.content?_withPresets, hfault] at hold
    cases hold

end PresetStore

end ButtonStyle

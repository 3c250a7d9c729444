import ButtonStyle.Preset.Store
import ButtonStyle.Proofs.Files
import ButtonStyle.Proofs.Preset.RoundTrip

/-!
# What a store does to its file

Reading the file of a store again gives the list that its content stands for (`run_readList`,
`run_reload`).  Saving either fails, and then the file is as it was, or it writes the text of the
longer list (`save_cases`).  For this the system has to keep the file apart from what is written to
it (`System.KeepsFile`).
-/

namespace ButtonStyle

variable {σ : Type}

theorem toByteArray_of_fromUTF8? {content : ByteArray} {s : String}
    (h : String.fromUTF8? content = some s) : s.toByteArray = content := by
  rw [String.fromUTF8?] at h
  split at h
  · cases h
    rfl
  · cases h

namespace PresetStore

/-! ### Reading -/

/-- The list of presets that the content of a file stands for. -/
def listOf (p : Path) : Option (Except FileFault ByteArray) → Except StoreFault (List Preset)
  | none => .ok []
  | some (.error why) => .error (.unreadable p why)
  | some (.ok content) =>
    match String.fromUTF8? content with
    | some s => (Preset.ofListText s).mapError .unfitting
    | none => .error (.unreadable p .notText)

/-- Reading a list of presets gives what the content of the file stands for, and changes nothing. -/
theorem run_readList (system : System σ) (p : Path) (s : σ) :
    (readList p).run system s = (listOf p (system.content? p s), s) := by
  rw [readList, Procedure.run_bind]
  simp only [Procedure.asksHolds, Procedure.run, System.content?]
  cases system.holds p s with
  | false => rfl
  | true =>
    simp only [if_true]
    rw [Procedure.run_bind]
    simp only [Procedure.readText, Procedure.run]
    cases system.read p s with
    | error why => rfl
    | ok content =>
      simp only [listOf]
      cases String.fromUTF8? content <;> rfl

theorem fromUTF8?_toUTF8 (s : String) : String.fromUTF8? s.toUTF8 = some s := by
  rw [String.toUTF8_eq_toByteArray, String.fromUTF8?, dif_pos s.isValidUTF8]
  rfl

theorem mapError_eq_ok_iff {α : Type} {f : Fault → StoreFault} {r : Except Fault α} {a : α} :
    r.mapError f = .ok a ↔ r = .ok a := by
  cases r <;> simp [Except.mapError]

/-- The text of a list of presets stands for that list exactly if the list holds numbers only. -/
theorem listOf_text_iff (p : Path) (presets : List Preset) :
    listOf p (some (.ok (Preset.listText presets).toUTF8)) = .ok presets ↔
      Preset.AreFinite presets := by
  rw [listOf, fromUTF8?_toUTF8]
  exact mapError_eq_ok_iff.trans Preset.ofListText_listText_iff

/-- What a file stands for holds numbers only. -/
theorem areFinite_of_listOf {p : Path} {content? : Option (Except FileFault ByteArray)}
    {presets : List Preset} (h : listOf p content? = .ok presets) : Preset.AreFinite presets := by
  unfold listOf at h
  split at h
  · cases h
    exact Preset.areFinite_nil
  · cases h
  · split at h
    · exact Preset.areFinite_of_ofListText (mapError_eq_ok_iff.1 h)
    · cases h

/-- Reading the file again replaces the list if the content stands for one. -/
theorem run_reload (system : System σ) (store : PresetStore) (s : σ) :
    store.reload.run system s =
      (match listOf store.path (system.content? store.path s) with
      | .ok presets => ({ store with presets }, none)
      | .error fault => (store, some fault), s) := by
  rw [reload, Procedure.run_bind, run_readList]
  cases listOf store.path (system.content? store.path s) <;> rfl

/-! ### Writing -/

theorem run_makesParents (system : System σ) (p : Path) (s : σ) :
    (Procedure.makesParents p).run system s = system.makeParents p s := rfl

theorem run_writeText (system : System σ) (p : Path) (text : String) (s : σ) :
    (Procedure.writeText p text).run system s = system.write p text.toUTF8 s := rfl

theorem run_save_of_isEmpty (system : System σ) (store : PresetStore) {name : String}
    (h : name.isEmpty = true) (b : Button) (s : σ) :
    (store.save name b).run system s = (.error .emptyName, s) := by
  rw [save, if_pos h]
  rfl

/-- Writing a list of presets fails and leaves the file as it was, or writes the text of the list. -/
theorem writeList_cases {system : System σ} {p : Path} (h : system.KeepsFile p)
    (presets : List Preset) (s : σ) :
    (∃ fault t, (writeList p presets).run system s = (.error fault, t) ∧
      system.content? p t = system.content? p s) ∨
    (∃ t, (writeList p presets).run system s = (.ok (), t) ∧
      system.content? p t = some (.ok (Preset.listText presets).toUTF8)) := by
  rw [writeList, Procedure.run_bind, run_makesParents]
  obtain ⟨r, t, hmake⟩ : ∃ r t, system.makeParents p s = (r, t) := ⟨_, _, rfl⟩
  have hparents := h.makeParents s
  rw [hmake] at hparents ⊢
  cases r with
  | error why => exact .inl ⟨_, t, rfl, hparents⟩
  | ok =>
    simp only
    rw [Procedure.run_bind, run_writeText]
    obtain ⟨r, u, hwrite⟩ :
      ∃ r u, system.write p (Preset.listText presets).toUTF8 t = (r, u) := ⟨_, _, rfl⟩
    have herror := h.write_error t (Preset.listText presets).toUTF8
    have hok := h.write_ok t (Preset.listText presets).toUTF8
    rw [hwrite] at herror hok ⊢
    cases r with
    | error why => exact .inl ⟨_, u, rfl, (herror why rfl).trans hparents⟩
    | ok => exact .inr ⟨u, rfl, hok rfl⟩

/-- **A save either fails, and then the file is as it was, or writes the longer list.** -/
theorem save_cases {system : System σ} {store : PresetStore} (h : system.KeepsFile store.path)
    (name : String) (b : Button) (s : σ) :
    (∃ fault t, (store.save name b).run system s = (.error fault, t) ∧
      system.content? store.path t = system.content? store.path s) ∨
    (∃ t, name.isEmpty = false ∧
      (store.save name b).run system s =
        (.ok { store with presets := store.presets ++ [⟨name, b⟩] }, t) ∧
      system.content? store.path t =
        some (.ok (Preset.listText (store.presets ++ [⟨name, b⟩])).toUTF8)) := by
  cases hname : name.isEmpty with
  | true => exact .inl ⟨.emptyName, s, run_save_of_isEmpty system store hname b s, rfl⟩
  | false =>
    rw [save, if_neg (by simp [hname])]
    simp only
    rw [Procedure.run_bind]
    rcases writeList_cases h (store.presets ++ [⟨name, b⟩]) s with
      ⟨fault, t, hrun, hcontent⟩ | ⟨t, hrun, hcontent⟩
    · rw [hrun]
      exact .inl ⟨fault, t, rfl, hcontent⟩
    · rw [hrun]
      exact .inr ⟨t, trivial, rfl, hcontent⟩

end PresetStore

end ButtonStyle

import ButtonStyle.Button.Standard
import ButtonStyle.Proofs.Json.Torn
import ButtonStyle.Proofs.Preset.Store

/-!
# Torn files of presets

The text of a list of presets ends with the bracket that closes it.  Whatever is torn off its end,
within a character or between two, the rest is no list of presets, and a store that reads it tells a
fault and keeps its list.
-/

namespace ButtonStyle

open Json (Draft)

/-! ### Torn lists -/

/-- A list is not read from what is left of a document. -/
theorem Shape.read_list_of_isTorn {α : Type} (item : Shape α) (source : Source) {d : Draft}
    (h : d.isTorn = true) : ∃ fault, (Shape.list item).read source d = .error fault := by
  cases d with
  | list items stop =>
    cases stop with
    | none => cases h
    | some g =>
      rw [read]
      cases items.mapM fun d => item.read source.inner d with
      | error fault => exact ⟨fault, rfl⟩
      | ok as => exact ⟨g.fault, rfl⟩
  | object members stop => exact ⟨_, rfl⟩
  | number l => exact ⟨_, rfl⟩
  | gap g => exact ⟨_, rfl⟩
  | _ => cases h

/-- No list is read from a torn text of a list. -/
theorem Shape.ofString_of_prefix {α : Type} (item : Shape α) (spell : Number → Json.Literal)
    (as : List α) {cs : List Char}
    (hfront : cs <+: ((Shape.list item).write spell as).pretty 0)
    (hne : cs ≠ ((Shape.list item).write spell as).pretty 0) :
    ∃ fault, (Shape.list item).ofString (String.ofList cs) = .error fault := by
  have hspells := Json.spells_pretty 0 ((Shape.list item).write spell as)
  obtain ⟨init, hinit⟩ :
      ∃ init, ((Shape.list item).write spell as).pretty 0 = init ++ [']'] := by
    rw [write]
    exact Json.pretty_list_eq_append 0 _
  obtain ⟨rest, hrest⟩ := hfront
  -- The closing bracket is among what is torn off.
  have hbracket : ']' ∈ rest := by
    rcases List.eq_nil_or_concat rest with rfl | ⟨rest, c, rfl⟩
    · exact absurd (by simpa using hrest) hne
    · rw [hinit, List.concat_eq_append, ← List.append_assoc] at hrest
      have hc := (List.append_inj' hrest rfl).2
      simp_all
  have htorn := Draft.isTorn_ofChars_take hspells (n := cs.length)
    ⟨']', by rw [← hrest, List.drop_left]; exact hbracket, rfl⟩
  rw [← hrest, List.take_left] at htorn
  obtain ⟨fault, hfault⟩ := Shape.read_list_of_isTorn item (.text 0) htorn
  refine ⟨fault, ?_⟩
  rw [ofString, String.toList_ofList]
  simp only [hfault]
  rfl

/-- Text in the first bytes of a longer text is a front of it. -/
theorem toList_prefix_of_extract {s text : String} {n : ℕ}
    (h : s.toByteArray = text.toByteArray.extract 0 n) : s.toList <+: text.toList := by
  refine List.isPrefix_of_utf8Encode_append_eq_utf8Encode
    (text.toByteArray.extract n text.toByteArray.size) ?_
  rw [String.utf8Encode_toList, String.utf8Encode_toList, h, ByteArray.extract_append_extract,
    Nat.zero_min, ByteArray.extract_zero_max_size]

/-- No list of presets is read from the bytes of a torn text, whether they are text or not. -/
theorem PresetStore.listOf_extract (p : Path) (presets : List Preset) {n : ℕ}
    (hn : n < (Preset.listText presets).toUTF8.size) :
    ∃ fault, listOf p (some (.ok ((Preset.listText presets).toUTF8.extract 0 n))) =
      .error fault := by
  rw [String.toUTF8_eq_toByteArray] at hn ⊢
  rw [listOf]
  cases htext : String.fromUTF8? ((Preset.listText presets).toByteArray.extract 0 n) with
  | none => exact ⟨_, rfl⟩
  | some s =>
    have hbytes := toByteArray_of_fromUTF8? htext
    have hfront := toList_prefix_of_extract hbytes
    have hne : s.toList ≠ (Preset.listText presets).toList := by
      intro heq
      have hsize := congrArg ByteArray.size hbytes
      rw [String.toList_injective heq, ByteArray.size_extract] at hsize
      omega
    rw [Preset.listText, Json.toPretty, String.toList_ofList] at hfront hne
    obtain ⟨fault, hfault⟩ :=
      Shape.ofString_of_prefix Preset.shape Number.literal presets hfront hne
    rw [String.ofList_toList] at hfault
    refine ⟨.unfitting fault, ?_⟩
    simp only [Preset.ofListText, hfault]
    rfl

/-- **A torn file of presets is never taken for a shorter list**: whatever list is in the memory of a
store, reading the file again tells a fault and changes nothing. -/
theorem PresetStore.reload_of_torn {σ : Type} (system : System σ) (s : σ) (store : PresetStore)
    (presets : List Preset) {n : ℕ} (hn : n < (Preset.listText presets).toUTF8.size)
    (hfile : system.content? store.path s =
      some (.ok ((Preset.listText presets).toUTF8.extract 0 n))) :
    ∃ fault, store.reload.run system s = ((store, some fault), s) := by
  obtain ⟨fault, hfault⟩ := listOf_extract store.path presets hn
  exact ⟨fault, by rw [run_reload, hfile, hfault]⟩

/-- The text of a preset begins with its name. -/
theorem Preset.take_listText (b : Button) :
    (Preset.listText [⟨"é", b⟩]).toList.take 21 = "[\n  \x7b\n    \"name\": \"é\"".toList := by
  simp [Preset.listText, Json.toPretty, Shape.write, Preset.shape, Fields.write,
    Presence.required, Json.pretty, Json.newline, Json.textChars, Json.textChar]

/-- The twentieth byte is the first of the two that make up the name. -/
theorem PresetStore.reload_of_torn_within_character :
    ∃ fault, (PresetStore.mk Desk.presetsPath [⟨"kept", .standard⟩]).reload.run Desk.system
        (Desk.withPresets ((Preset.listText [⟨"é", .standard⟩]).toUTF8.extract 0 20)) =
      ((PresetStore.mk Desk.presetsPath [⟨"kept", .standard⟩], some fault),
        Desk.withPresets ((Preset.listText [⟨"é", .standard⟩]).toUTF8.extract 0 20)) := by
  refine reload_of_torn Desk.system _ _ [⟨"é", .standard⟩] (n := 20) ?_
    (Desk.content?_withPresets _)
  rw [String.toUTF8_eq_toByteArray, ← String.utf8Encode_toList,
    ← List.take_append_drop 21 (Preset.listText [⟨"é", .standard⟩]).toList, Preset.take_listText,
    List.utf8Encode_append, ByteArray.size_append]
  have hsize : 20 < "[\n  \x7b\n    \"name\": \"é\"".toList.utf8Encode.size := by decide
  omega

end ButtonStyle

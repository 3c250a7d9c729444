import ButtonStyle.Button.Standard
import ButtonStyle.Preset.Basic
import ButtonStyle.Proofs.Shape.RoundTrip

/-!
# Buttons and presets are read as they were written

The shapes of buttons and presets are lawful, so that every button and every list of presets that
hold numbers only are read back from their text, in both layouts, without a loss: the texts
character by character, the numbers bit by bit, and what is absent as absent.  And what was read
holds numbers only (`Preset.areFinite_of_ofListText`), so that it is never lost when it is written
again.
-/

namespace ButtonStyle

theorem Button.shape_isLawful : Button.shape.isLawful = true := by
  decide

theorem Button.shape_fillsFinite : Button.shape.fillsFinite = true := by
  decide

theorem Button.isFinite_standard : Button.shape.all Quantity.isFinite .standard = true := by
  decide

/-- A button that was read holds numbers only. -/
theorem Button.isFinite_of_ofString {s : String} {b : Button} (h : shape.ofString s = .ok b) :
    shape.all Quantity.isFinite b = true :=
  Shape.all_isFinite_of_ofString shape_fillsFinite h

namespace Preset

theorem shape_isLawful : shape.isLawful = true := by
  decide

theorem listShape_isLawful : (Shape.list shape).isLawful = true := shape_isLawful

/-- Whether the buttons of a list of presets hold numbers only. -/
def AreFinite (presets : List Preset) : Prop :=
  ∀ p ∈ presets, Button.shape.all Quantity.isFinite p.button = true

theorem all_isFinite_iff {presets : List Preset} :
    (Shape.list shape).all Quantity.isFinite presets = true ↔ AreFinite presets := by
  rw [Shape.all, List.all_eq_true]
  simp [AreFinite, shape, Shape.all, Fields.all]

/-- A list of presets is read back from the text of its file. -/
theorem ofListText_listText {presets : List Preset} (h : AreFinite presets) :
    ofListText (listText presets) = .ok presets :=
  Shape.ofString_toPretty readsBack_literal listShape_isLawful (all_isFinite_iff.2 h)

/-- **A list of presets that was read holds numbers only.** -/
theorem areFinite_of_ofListText {s : String} {presets : List Preset}
    (h : ofListText s = .ok presets) : AreFinite presets := by
  have hfills : (Shape.list shape).fillsFinite = true := by decide
  exact all_isFinite_iff.1 (Shape.all_isFinite_of_ofString hfills h)

/-- **A list of presets is read back from the text of its file exactly if it holds numbers
only.** -/
theorem ofListText_listText_iff {presets : List Preset} :
    ofListText (listText presets) = .ok presets ↔ AreFinite presets :=
  ⟨areFinite_of_ofListText, ofListText_listText⟩

theorem areFinite_nil : AreFinite [] := List.forall_mem_nil _

theorem areFinite_concat {presets : List Preset} {name : String} {b : Button} :
    AreFinite (presets ++ [⟨name, b⟩]) ↔
      AreFinite presets ∧ Button.shape.all Quantity.isFinite b = true :=
  List.forall_mem_append.trans (and_congr_right' List.forall_mem_singleton)

end Preset

/-- **Every button and every list of presets that hold numbers only are read back from their texts,
in both layouts.** -/
theorem button_and_presets_read_back {b : Button} {presets : List Preset}
    (hb : Button.shape.all Quantity.isFinite b = true) (hpresets : Preset.AreFinite presets) :
    (Button.shape.ofString (Button.shape.write Number.literal b).toCompact = .ok b ∧
      Button.shape.ofString (Button.shape.write Number.literal b).toPretty = .ok b) ∧
    ((Shape.list Preset.shape).ofString
        ((Shape.list Preset.shape).write Number.literal presets).toCompact = .ok presets ∧
      Preset.ofListText (Preset.listText presets) = .ok presets) := by
  have hbutton := Button.shape_isLawful
  have hlist := Preset.listShape_isLawful
  refine ⟨⟨?_, ?_⟩, ?_, ?_⟩
  · exact Shape.ofString_toCompact readsBack_literal hbutton hb
  · exact Shape.ofString_toPretty readsBack_literal hbutton hb
  · exact Shape.ofString_toCompact readsBack_literal hlist (Preset.all_isFinite_iff.2 hpresets)
  · exact Preset.ofListText_listText hpresets

/-- A list may hold a preset twice. -/
theorem button_and_presets_read_back_twice :
    Button.shape.all Quantity.isFinite .standard = true ∧
      Preset.ofListText (Preset.listText [⟨"a", .standard⟩, ⟨"a", .standard⟩]) =
        .ok [⟨"a", .standard⟩, ⟨"a", .standard⟩] := by
  have hb := Button.isFinite_standard
  have hpresets : Preset.AreFinite [⟨"a", .standard⟩, ⟨"a", .standard⟩] := by
    simp [Preset.AreFinite, hb]
  exact ⟨hb, (button_and_presets_read_back hb hpresets).2.2⟩

end ButtonStyle

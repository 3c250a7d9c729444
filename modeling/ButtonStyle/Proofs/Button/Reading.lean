import ButtonStyle.Button.Standard
import ButtonStyle.Proofs.Preset.RoundTrip
import ButtonStyle.Proofs.Shape.Denotation

/-!
# Buttons are read in any arrangement

A button is read from each of its documents, whatever the order of the members in the objects and
whatever stands among them that is unknown, and from each text of such a document.
-/

namespace ButtonStyle

open Json (Token)

namespace Button

/-- **A button is read from every text of a document that stands for it.**  The document that is
written of a button that holds numbers only is one (`Shape.denotes_write`), and so is each that has
the members of its objects in other orders and unknown ones among them. -/
theorem ofString_of_any_arrangement {b : Button} {d : Json} (hd : shape.Denotes d b)
    (hfinite : d.IsFinite) (hdepth : d.depth ≤ depthLimit) {cs : List Char}
    (hcs : Token.Spells cs d.tokens) : shape.ofString (String.ofList cs) = .ok b :=
  Shape.ofString_of_denotes shape shape_isLawful hd hfinite hdepth hcs

/-- A document of a button whose members stand in reverse, an unknown one before them. -/
def reversedDocument (b : Button) : Json :=
  match shape.write Number.literal b with
  | .object members => .object (("note", .list [.null]) :: members.reverse)
  | d => d

theorem ofString_reversedDocument_standard :
    shape.Denotes standard.reversedDocument standard ∧ standard.reversedDocument.IsFinite ∧
      standard.reversedDocument.depth ≤ depthLimit ∧
      Token.Spells (standard.reversedDocument.pretty 0) standard.reversedDocument.tokens ∧
      shape.ofString (String.ofList (standard.reversedDocument.pretty 0)) = .ok standard := by
  obtain ⟨members, hmembers⟩ : ∃ members, shape.write Number.literal standard = .object members :=
    ⟨_, rfl⟩
  have hd : shape.Denotes standard.reversedDocument standard := by
    obtain ⟨known, hknown, harranges⟩ := shape.denotes_write readsBack_literal isFinite_standard
    rw [hmembers] at harranges
    rw [reversedDocument, hmembers]
    have hperm : (("note", Json.list [.null]) :: members.reverse).Perm
        (members ++ [("note", .list [.null])]) :=
      (members.reverse_perm.cons _).trans (List.perm_append_singleton _ _).symm
    exact ⟨known, hknown, harranges.of_perm hperm (by decide)⟩
  have hfinite : standard.reversedDocument.IsFinite := by
    have hwritten := shape.isFinite_write readsBack_literal standard
    rw [hmembers] at hwritten
    rw [reversedDocument, hmembers]
    refine Json.allNumbers_object.2 (List.forall_mem_cons.2 ⟨?_, fun m hm => ?_⟩)
    · simp [Json.AllNumbers, Json.tokens, Json.itemTokens]
    · exact Json.allNumbers_object.1 hwritten m (List.mem_reverse.1 hm)
  have hdepth : standard.reversedDocument.depth ≤ depthLimit := by decide
  have hspells := Json.spells_pretty 0 standard.reversedDocument
  exact ⟨hd, hfinite, hdepth, hspells, ofString_of_any_arrangement hd hfinite hdepth hspells⟩

end Button

/-- A fill with its value before its type. -/
example : Fill.shape.read (.text 0)
    (Json.object [("value", .text "red"), ("note", .null), ("type", .text "solid")]).draft =
      .ok (.solid "red") := rfl

end ButtonStyle

import ButtonStyle.Button.Standard
import ButtonStyle.Proofs.Button.Value
import ButtonStyle.TokenDocument

/-!
# What token documents hold

The parts of a button that a token document holds are listed once, each with its path in the
document and its shape (`exportedParts`).  Main statement: **a token document loses nothing of
them**, if the button holds numbers only (`tokens_keep_exported_parts`).  Its text is a JSON document
with certain keys in a certain order; each of the parts is read back, by its shape, as a value equal
to that of the button; whole numbers stand in the text as integers; and two buttons have the same
text exactly when all the parts are equal by value.
-/

namespace ButtonStyle

open Json (Token)

/-! ### Members of documents -/

namespace Json

/-- The keys of an object, in their order. -/
def keys : Json → List String
  | object members => members.map Prod.fst
  | _ => []

/-- The document at a path of keys. -/
def at? : Json → List String → Option Json
  | d, [] => some d
  | object members, key :: path => (members.lookup key).bind fun member => member.at? path
  | _, _ :: _ => none

end Json

/-! ### The exported parts -/

/-- A part of buttons that is written into a document. -/
structure ExportedPart where
  {α : Type}
  [beq : BEq α]
  /-- The keys that lead to it. -/
  path : List String
  shape : Shape α
  get : Button → α
  [faithful : shape.Faithful]
  lawful : shape.isLawful = true := by decide
  ignoresSigns : shape.IgnoresSigns

namespace ExportedPart

attribute [instance] beq faithful

/-- Two buttons have the part in common, up to the signs of zeros. -/
def Agree (p : ExportedPart) (a b : Button) : Prop := (p.get a == p.get b) = true

/-- In a document the part stands at its path and is read as a value equal to that of a button. -/
def IsReadFrom (p : ExportedPart) (d : Json) (b : Button) : Prop :=
  ∃ part v, d.at? p.path = some part ∧ (∀ source, p.shape.read source part.draft = .ok v) ∧
    (v == p.get b) = true

end ExportedPart

namespace Button

/-- The parts of a button that its token document holds. -/
def exportedParts : List ExportedPart :=
  [{ path := ["base", "background"], shape := Fill.shape
     get := fun b => (b.look .default).background, ignoresSigns := Fill.shape_ignoresSigns },
   { path := ["base", "text"], shape := .text
     get := fun b => (b.look .default).textColor, ignoresSigns := trivial },
   { path := ["base", "border"], shape := .text
     get := fun b => (b.look .default).borderColor, ignoresSigns := trivial },
   { path := ["typography"], shape := Typography.shape
     get := fun b => b.typography, ignoresSigns := Typography.shape_ignoresSigns },
   { path := ["layout"], shape := Layout.shape
     get := fun b => b.layout, ignoresSigns := Layout.shape_ignoresSigns },
   { path := ["motion"], shape := Motion.shape
     get := fun b => b.motion, ignoresSigns := Motion.shape_ignoresSigns },
   { path := ["effects"], shape := Effects.shape
     get := fun b => b.effects, ignoresSigns := Effects.shape_ignoresSigns },
   { path := ["variants", "hover"], shape := Look.shape
     get := fun b => b.look .hover, ignoresSigns := Look.shape_ignoresSigns },
   { path := ["variants", "active"], shape := Look.shape
     get := fun b => b.look .active, ignoresSigns := Look.shape_ignoresSigns },
   { path := ["variants", "focus"], shape := Look.shape
     get := fun b => b.look .focus, ignoresSigns := Look.shape_ignoresSigns },
   { path := ["variants", "disabled"], shape := Look.shape
     get := fun b => b.look .disabled, ignoresSigns := Look.shape_ignoresSigns }]

/-! ### The document -/

section Document

variable {p : ExportedPart}

theorem at?_tokenDocument (b : Button) (hp : p ∈ exportedParts) :
    b.tokenDocument.at? p.path = some (token p.shape (p.get b)) := by
  simp only [exportedParts, List.mem_cons, List.not_mem_nil, or_false] at hp
  rcases hp with rfl | rfl | rfl | rfl | rfl | rfl | rfl | rfl | rfl | rfl | rfl <;> rfl

theorem all_get {q : Quantity → Bool} {b : Button} (hb : shape.all q b = true)
    (hp : p ∈ exportedParts) : p.shape.all q (p.get b) = true := by
  have hparts := all_of_shape hb
  simp only [exportedParts, List.mem_cons, List.not_mem_nil, or_false] at hp
  rcases hp with rfl | rfl | rfl | rfl | rfl | rfl | rfl | rfl | rfl | rfl | rfl
  · exact (Look.all_of_shape (hparts.look .default)).background
  · rfl
  · rfl
  · exact hparts.typography
  · exact hparts.layout
  · exact hparts.motion
  · exact hparts.effects
  all_goals exact hparts.look _

/-- An exported part is read from the token document. -/
theorem isReadFrom_tokenDocument {b : Button} (hb : shape.all Quantity.isFinite b = true)
    (hp : p ∈ exportedParts) : p.IsReadFrom b.tokenDocument b := by
  have hfinite := all_get hb hp
  have hdefined := p.shape.all_mono (fun _ => Quantity.isDefined_of_isFinite) _ hfinite
  exact ⟨token p.shape (p.get b), p.shape.plain (p.get b), at?_tokenDocument b hp,
    fun source => Shape.read_write_compact p.lawful p.ignoresSigns source hfinite,
    p.shape.plain_beq hdefined⟩

/-- There is nothing in the document but the exported parts. -/
theorem tokenDocument_eq_of_token_eq {a b : Button}
    (h : ∀ p ∈ exportedParts, token p.shape (p.get a) = token p.shape (p.get b)) :
    a.tokenDocument = b.tokenDocument := by
  simp only [exportedParts, List.forall_mem_cons] at h
  obtain ⟨background, text, border, typography, layout, motion, effects, hover, active, focus,
    disabled, -⟩ := h
  have htext : (a.look .default).textColor = (b.look .default).textColor := Json.text.inj text
  have hborder : (a.look .default).borderColor = (b.look .default).borderColor :=
    Json.text.inj border
  simp only [tokenDocument, State.tokenVariants, List.map_cons, List.map_nil, background, htext,
    hborder, typography, layout, motion, effects, hover, active, focus, disabled]

theorem tokenDocument_eq_of_agree {a b : Button} (h : ∀ p ∈ exportedParts, p.Agree a b) :
    a.tokenDocument = b.tokenDocument :=
  tokenDocument_eq_of_token_eq fun p hp => Shape.write_compact_eq_of_beq p.ignoresSigns (h p hp)

theorem agree_of_tokenDocument_eq {a b : Button} (ha : shape.all Quantity.isFinite a = true)
    (hb : shape.all Quantity.isFinite b = true) (h : a.tokenDocument = b.tokenDocument)
    (hp : p ∈ exportedParts) : p.Agree a b := by
  have htoken := at?_tokenDocument a hp
  rw [h, at?_tokenDocument b hp] at htoken
  exact (Shape.write_compact_eq_iff p.lawful p.ignoresSigns (all_get ha hp) (all_get hb hp)).1
    (Option.some.inj htoken).symm

theorem allNumbers_tokenDocument {P : Json.Literal → Prop}
    (h : ∀ x : Number, P x.compactLiteral) (b : Button) : b.tokenDocument.AllNumbers P := by
  have htoken {α : Type} (shape : Shape α) (a : α) : (token shape a).AllNumbers P :=
    Shape.allNumbers_write h shape a
  simp [tokenDocument, State.tokenVariants, htoken]

end Document

/-- **A token document of a button that holds numbers only loses nothing of its parts.** -/
theorem tokens_keep_exported_parts {b : Button} (hb : shape.all Quantity.isFinite b = true) :
    (∃ d, Json.ofString? b.tokens = some d ∧
      d.keys = ["base", "typography", "layout", "motion", "effects", "variants"] ∧
      (d.at? ["base"]).map Json.keys = some ["background", "text", "border"] ∧
      (d.at? ["variants"]).map Json.keys = some ["hover", "active", "focus", "disabled"] ∧
      ∀ p ∈ exportedParts, p.IsReadFrom d b) ∧
    (∀ l, Token.number l ∈ Token.ofChars b.tokens.toList →
      ∃ x : Number, l.number? = some x ∧
        ∀ n : ℤ, x.units = n * Number.unitsPerOne → n.natAbs ≤ 2 ^ 53 → l.isInteger = true) ∧
    ∀ a : Button, shape.all Quantity.isFinite a = true →
      (a.tokens = b.tokens ↔ ∀ p ∈ exportedParts, p.Agree a b) := by
  refine ⟨⟨b.tokenDocument, Json.ofString?_toPretty _, rfl, rfl, rfl,
    fun p hp => isReadFrom_tokenDocument hb hp⟩, ?_, fun a ha => ⟨fun h p hp => ?_, fun h => ?_⟩⟩
  · have htokens : Token.ofChars b.tokens.toList = b.tokenDocument.tokens := by
      rw [tokens, Json.toPretty, String.toList_ofList,
        Token.ofChars_of_spells (Json.spells_pretty 0 _)]
    rw [htokens]
    refine allNumbers_tokenDocument (fun x => ⟨x.plain, x.number?_compactLiteral, ?_⟩) b
    intro n hx hn
    rw [Number.units_plain] at hx
    exact Number.isInteger_compactLiteral hx hn
  · exact agree_of_tokenDocument_eq ha hb (Json.toPretty_injective h) hp
  · rw [tokens, tokenDocument_eq_of_agree h, tokens]

/-- The layout of the standard button is read from its token document. -/
theorem tokens_keep_exported_parts_standard :
    shape.all Quantity.isFinite standard = true ∧
      ∃ d part v, Json.ofString? standard.tokens = some d ∧ d.at? ["layout"] = some part ∧
        Layout.shape.read .held part.draft = .ok v ∧ (v == standard.layout) = true := by
  have hfinite : shape.all Quantity.isFinite standard = true := by decide
  obtain ⟨⟨d, hd, -, -, -, hparts⟩, -⟩ := tokens_keep_exported_parts hfinite
  obtain ⟨part, v, hpart, hread, hv⟩ := hparts _ (List.getElem_mem (n := 4) (by decide))
  exact ⟨hfinite, d, part, v, hd, hpart, hread .held, hv⟩

end Button

end ButtonStyle

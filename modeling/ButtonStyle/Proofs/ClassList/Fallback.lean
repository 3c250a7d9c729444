import ButtonStyle.Button.Edit
import ButtonStyle.Proofs.ClassList.Agreement
import ButtonStyle.Proofs.Css.Layers
import ButtonStyle.Proofs.Number.Text

/-!
# Classes that are left out

Where a state has no class of its own for its opacity or its shadow, the class of the button at rest
holds for it.  Main statement: **the class list shows for a state what its rule declares unless a
class is left out that the button at rest has** (`classes_show_own_look`).  Then the look at rest is
shown instead, as for a button that is faint at rest only (`faintAtRest_shows_rest`).
-/

namespace ButtonStyle

open Css Text ClassName

/-! ### Blanks and underscores -/

theorem Text.mem_squeezed {c : Char} (hc : isBlank c = false) {cs : List Char} (h : c ∈ cs) :
    c ∈ squeezed cs := by
  induction cs with
  | nil => cases h
  | cons d cs ih =>
    rcases List.mem_cons.1 h with rfl | h
    · rw [squeezed_cons_of_not_isBlank hc]
      exact List.mem_cons_self
    · rw [squeezed]
      split
      · exact ih h
      · exact List.mem_cons_of_mem _ (ih h)

/-- Only blanks are replaced. -/
theorem Text.mem_underscored {c : Char} (hc : isBlank c = false) {s : String} (h : c ∈ s.toList) :
    c ∈ (underscored s).toList := by
  rw [underscored, String.toList_ofList]
  exact mem_squeezed hc (mem_trimChars hc h)

namespace Variant

/-- How the classes of a button at rest are made. -/
def atRest : Variant := ⟨.default, "", true, false, []⟩

/-- How the classes of a button under the pointer are made. -/
def hovered : Variant := ⟨.hover, "hover:", true, false, []⟩

/-- How the classes of a button that is pressed are made. -/
def pressed : Variant := ⟨.active, "active:", false, false, []⟩

theorem atRest_mem_all : atRest ∈ all := by simp [all, atRest]

theorem hovered_mem_all : hovered ∈ all := by simp [all, hovered]

theorem pressed_mem_all : pressed ∈ all := by simp [all, pressed]

end Variant

/-! ### The value that counts -/

namespace Button

/-- The value that the class list shows under a name and a qualifier: that of the class with the
qualifier, else that of the class without it, else the one that holds without any class. -/
def shown (b : Button) (qualifier name initial : String) : String :=
  ((b.valuesOf (qualifier ++ name)).head?.or (b.valuesOf name).head?).getD initial

/-- The class list shows the opacity that a rule declares. -/
def ShowsOpacity (b : Button) (qualifier : String) (r : Rule) : Prop :=
  r.value? "opacity" = some (b.shown qualifier "opacity-" "1")

/-- The class list shows the shadow that a rule declares, with underscores for the blanks. -/
def ShowsShadow (b : Button) (qualifier : String) (r : Rule) : Prop :=
  (r.value? "box-shadow").map underscored = some (b.shown qualifier "shadow-" absent)

/-- A state is opaque, but the button at rest is not. -/
def OpacityFallsBack (b : Button) (s : State) : Prop :=
  (b.look s).opacity == 1 ∧ ¬ (b.look .default).opacity == 1

/-- A state has no layers of shadow, but the button at rest has some that show. -/
def ShadowFallsBack (b : Button) (s : State) : Prop :=
  (b.look s).shadows = [] ∧ ∃ layer ∈ (b.look .default).shadows, layer.enabled

instance (b : Button) (s : State) : Decidable (b.OpacityFallsBack s) :=
  inferInstanceAs (Decidable (_ ∧ _))

instance (b : Button) (s : State) : Decidable (b.ShadowFallsBack s) :=
  decidable_of_iff ((b.look s).shadows.isEmpty ∧ ∃ layer ∈ (b.look .default).shadows, layer.enabled)
    (by simp [ShadowFallsBack])

/-- What the class list shows as the opacity of a state with a rule. -/
structure OpacityShown (b : Button) (qualifier : String) (s : State) (r : Rule) : Prop where
  shown : b.shown qualifier "opacity-" "1" =
    (b.look (if (b.look s).opacity == 1 then .default else s)).opacity.css
  agrees : b.ShowsOpacity qualifier r ↔ ¬ b.OpacityFallsBack s

/-- What the class list shows as the shadow of a state with a rule. -/
structure ShadowShown (b : Button) (qualifier : String) (s : State) (r : Rule) : Prop where
  shown : b.shown qualifier "shadow-" absent =
    underscored (boxShadow (b.look (if (b.look s).shadows.isEmpty then .default else s)).shadows)
  agrees : b.ShowsShadow qualifier r ↔ ¬ b.ShadowFallsBack s

/-- Opacity and shadow stand only among the classes for states. -/
theorem valuesOf_own (b : Button) {v : Variant} (hv : v ∈ Variant.all) (name : String)
    (hname : name ∈ ["opacity-", "shadow-"]) :
    b.valuesOf (v.qualifier ++ name) = v.values (b.look v.state) (v.qualifier ++ name) := by
  simp only [List.mem_cons, List.not_mem_nil, or_false] at hname
  simp only [Variant.all, List.mem_cons, List.not_mem_nil, or_false] at hv
  rcases hv with rfl | rfl | rfl | rfl
  all_goals
    rcases hname with rfl | rfl <;>
      simp (disch := decide) [valuesOf_eq, Variant.all, Variant.values]

/-! ### The opacity -/

section Opacity

variable (b : Button)

theorem valuesOf_opacity {v : Variant} (hv : v ∈ Variant.all) :
    b.valuesOf (v.qualifier ++ "opacity-") =
      if v.opacity || !((b.look v.state).opacity == 1) then [(b.look v.state).opacity.css]
      else [] := by
  rw [b.valuesOf_own hv "opacity-" (by decide), Variant.values_opacity,
    underscored_eq_self (isUnbroken_css _)]

/-- What is left out at rest is the opacity that holds without any class. -/
theorem getD_opacity_at_rest :
    (b.valuesOf "opacity-").head?.getD "1" = (b.look .default).opacity.css := by
  have hone : (1 : Quantity).css = "1" := by decide +kernel
  have hrest := b.valuesOf_opacity Variant.atRest_mem_all
  rw [Variant.atRest, String.empty_append] at hrest
  rw [hrest]
  by_cases h : (b.look .default).opacity == 1
  · rw [Quantity.css_eq_of_beq h, hone]
    simp [h]
  · simp [h]

theorem shown_opacity {v : Variant} (hv : v ∈ Variant.all) (hopacity : v.opacity = false) :
    b.shown v.qualifier "opacity-" "1" =
      (b.look (if (b.look v.state).opacity == 1 then .default else v.state)).opacity.css := by
  rw [shown, b.valuesOf_opacity hv, hopacity]
  by_cases h : (b.look v.state).opacity == 1
  · rw [if_pos h]
    simp [h, b.getD_opacity_at_rest]
  · rw [if_neg h]
    simp [h]

theorem opacityShown (base : String) {v : Variant} (hv : v ∈ Variant.all)
    (hopacity : v.opacity = false) :
    b.OpacityShown v.qualifier v.state (b.stateRule base v.state) := by
  have hdeclared : (b.stateRule base v.state).value? "opacity" =
      some (b.look v.state).opacity.css := (b.stateRule_declares base v.state).value? "opacity"
  have hshown := b.shown_opacity hv hopacity
  refine ⟨hshown, ?_⟩
  rw [ShowsOpacity, hdeclared, hshown, Option.some.injEq, Quantity.css_eq_css_iff,
    OpacityFallsBack]
  by_cases h : (b.look v.state).opacity == 1
  · have hrest : (b.look v.state).opacity.plain = (b.look .default).opacity.plain ↔
        (b.look .default).opacity == 1 := by
      rw [(Quantity.beq_iff.1 h).1, BEq.comm]
      exact (Quantity.beq_iff.trans (and_iff_left rfl)).symm
    rw [if_pos h, hrest]
    simp only [h, true_and, not_not]
  · rw [if_neg h]
    exact iff_of_true rfl fun hfalls => h hfalls.1

end Opacity

/-! ### The shadow -/

section Shadow

/-- A shadow is none exactly if no layer of it shows. -/
theorem underscored_boxShadow_eq_absent_iff {shadows : List Shadow} :
    underscored (boxShadow shadows) = absent ↔ ¬ ∃ layer ∈ shadows, layer.enabled := by
  constructor
  · rintro h ⟨layer, hlayer, henabled⟩
    -- the unit of a length has a letter that is not in `none`
    have hshadow : 'x' ∈ (boxShadow shadows).toList :=
      mem_layers x_mem_boxLayer (List.any_eq_true.2 ⟨layer, hlayer, henabled⟩)
    have habsent := mem_underscored (by decide) hshadow
    rw [h] at habsent
    exact absurd habsent (by decide)
  · intro h
    have habsent : boxShadow shadows = absent := (boxShadow_law.eq_absent_iff shadows).2
      fun layer hlayer => by simpa using fun henabled => h ⟨layer, hlayer, henabled⟩
    rw [habsent]
    decide

variable (b : Button)

theorem valuesOf_shadow {v : Variant} (hv : v ∈ Variant.all) (hshadow : v.shadow = true) :
    b.valuesOf (v.qualifier ++ "shadow-") =
      if (b.look v.state).shadows.isEmpty then []
      else [underscored (boxShadow (b.look v.state).shadows)] := by
  rw [b.valuesOf_own hv "shadow-" (by decide), Variant.values_shadow, hshadow]
  cases (b.look v.state).shadows.isEmpty <;> rfl

theorem getD_shadow_at_rest :
    (b.valuesOf "shadow-").head?.getD absent = underscored (boxShadow (b.look .default).shadows) := by
  have hrest := b.valuesOf_shadow Variant.atRest_mem_all rfl
  rw [Variant.atRest, String.empty_append] at hrest
  rw [hrest]
  cases (b.look .default).shadows with
  | nil => decide
  | cons => rfl

theorem shown_shadow {v : Variant} (hv : v ∈ Variant.all) (hshadow : v.shadow = true) :
    b.shown v.qualifier "shadow-" absent =
      underscored (boxShadow
        (b.look (if (b.look v.state).shadows.isEmpty then .default else v.state)).shadows) := by
  rw [shown, b.valuesOf_shadow hv hshadow]
  by_cases h : (b.look v.state).shadows.isEmpty
  · simp [h, b.getD_shadow_at_rest]
  · simp [h]

theorem shadowShown (base : String) {v : Variant} (hv : v ∈ Variant.all)
    (hshadow : v.shadow = true) :
    b.ShadowShown v.qualifier v.state (b.stateRule base v.state) := by
  have hfocus : ∀ v ∈ Variant.all, v.state ≠ .focus := by decide
  have hdeclared : (b.stateRule base v.state).value? "box-shadow" =
      some (boxShadow (b.look v.state).shadows) := by
    rw [(b.stateRule_declares base v.state).value?]
    exact congrArg some (if_neg (hfocus v hv))
  have hshown := b.shown_shadow hv hshadow
  refine ⟨hshown, ?_⟩
  rw [ShowsShadow, hdeclared, hshown, Option.map_some, Option.some.injEq, ShadowFallsBack]
  by_cases h : (b.look v.state).shadows = []
  · have hnone : underscored (boxShadow []) = absent := by decide
    rw [h, hnone, List.isEmpty_nil, if_pos rfl, eq_comm, underscored_boxShadow_eq_absent_iff]
    simp only [true_and]
  · rw [if_neg (by simpa using h)]
    exact iff_of_true rfl fun hfalls => h hfalls.1

end Shadow

/-! ### The look that is shown -/

/-- **The class list shows for a state what its rule declares, unless a class is left out that the
button at rest has.** -/
theorem classes_show_own_look (b : Button) (base : String) :
    b.OpacityShown "hover:" .hover (b.stateRule base .hover) ∧
    b.OpacityShown "active:" .active (b.stateRule base .active) ∧
    b.ShadowShown "hover:" .hover (b.stateRule base .hover) := by
  refine ⟨?_, ?_, ?_⟩
  · exact b.opacityShown base Variant.hovered_mem_all rfl
  · exact b.opacityShown base Variant.pressed_mem_all rfl
  · exact b.shadowShown base Variant.hovered_mem_all rfl

/-- The standard button, faint at rest and without a shadow under the pointer. -/
def faintAtRest : Button :=
  (standard.modifyLook .default fun l => { l with opacity := 0.5 }).modifyLook .hover
    fun l => { l with shadows := [] }

/-- **A button that is faint at rest is shown so in other states too**, which are declared to be
opaque, and one that has a shadow at rest only is shown with it under the pointer. -/
theorem faintAtRest_shows_rest :
    ¬ faintAtRest.ShowsOpacity "hover:" (faintAtRest.stateRule buttonSelector .hover) ∧
    ¬ faintAtRest.ShowsOpacity "active:" (faintAtRest.stateRule buttonSelector .active) ∧
    ¬ faintAtRest.ShowsShadow "hover:" (faintAtRest.stateRule buttonSelector .hover) := by
  have hhover : faintAtRest.OpacityFallsBack .hover := by decide +kernel
  have hactive : faintAtRest.OpacityFallsBack .active := by decide +kernel
  have hshadow : faintAtRest.ShadowFallsBack .hover := by decide +kernel
  refine ⟨fun h => ?_, fun h => ?_, fun h => ?_⟩
  · exact (faintAtRest.opacityShown _ Variant.hovered_mem_all rfl).agrees.1 h hhover
  · exact (faintAtRest.opacityShown _ Variant.pressed_mem_all rfl).agrees.1 h hactive
  · exact (faintAtRest.shadowShown _ Variant.hovered_mem_all rfl).agrees.1 h hshadow

end Button

end ButtonStyle

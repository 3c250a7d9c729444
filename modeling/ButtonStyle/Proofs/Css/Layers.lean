import ButtonStyle.Proofs.States

/-!
# Layers of shadow

The value of a shadow is put together from its layers (`LayersLaw`): only the enabled ones count,
where there is none the value is `none`, and the value of two lists, one after the other, is put
together from the values of the two.

So a layer that is disabled leaves no trace in the stylesheet: **to disable a layer gives the same
stylesheet as to remove it** (`disable_eq_remove`).
-/

namespace ButtonStyle

open Css

namespace Css

/-- The parts of a text that is put together stand in it. -/
theorem mem_toList_intercalate {sep part : String} {parts : List String} (hpart : part ∈ parts)
    {c : Char} (hc : c ∈ part.toList) : c ∈ (sep.intercalate parts).toList := by
  induction parts with
  | nil => cases hpart
  | cons first parts ih =>
    by_cases hnil : parts = []
    · subst hnil
      rw [List.mem_singleton] at hpart
      rwa [String.intercalate_singleton, ← hpart]
    · simp only [String.intercalate_cons_of_ne_nil hnil, String.toList_append, List.mem_append]
      rcases List.mem_cons.1 hpart with rfl | hpart
      · exact .inl (.inl hc)
      · exact .inr (ih hpart)

/-- The value of a list of shadows is put together from the layers that are enabled. -/
structure LayersLaw (value : List Shadow → String) : Prop where
  /-- Only the enabled layers count, in their order. -/
  eq_of_filter (xs ys : List Shadow) (h : xs.filter Shadow.enabled = ys.filter Shadow.enabled) :
    value xs = value ys
  /-- The value is `none` just where no layer is enabled. -/
  eq_absent_iff (xs : List Shadow) : value xs = absent ↔ ∀ s ∈ xs, s.enabled = false
  /-- Of two lists those count in which a layer is enabled. -/
  append (xs ys : List Shadow) (h : ∃ s ∈ xs ++ ys, s.enabled = true) :
    value (xs ++ ys) = ", ".intercalate (([xs, ys].filter (·.any Shadow.enabled)).map value)

section Layers

variable {layer : Shadow → String}

/-- The value of which the enabled layers are the parts. -/
def layers (layer : Shadow → String) (shadows : List Shadow) : String :=
  joined ", " ((shadows.filter Shadow.enabled).map layer)

/-- Where a layer is enabled the value has parts. -/
theorem parts_ne_nil {shadows : List Shadow} (h : shadows.any Shadow.enabled = true) :
    (shadows.filter Shadow.enabled).map layer ≠ [] := by
  obtain ⟨s, hs, henabled⟩ := List.any_eq_true.1 h
  exact List.ne_nil_of_mem (List.mem_map_of_mem (List.mem_filter.2 ⟨hs, henabled⟩))

theorem layers_of_any {shadows : List Shadow} (h : shadows.any Shadow.enabled = true) :
    layers layer shadows = ", ".intercalate ((shadows.filter Shadow.enabled).map layer) :=
  joined_of_ne_nil _ (parts_ne_nil h)

theorem layers_of_not_any {shadows : List Shadow} (h : shadows.any Shadow.enabled = false) :
    shadows.filter Shadow.enabled = [] := by
  rw [List.filter_eq_nil_iff]
  simpa using h

/-- A character that stands in all layers stands in the value if a layer is enabled. -/
theorem mem_layers {c : Char} (hc : ∀ s, c ∈ (layer s).toList) {shadows : List Shadow}
    (h : shadows.any Shadow.enabled = true) : c ∈ (layers layer shadows).toList := by
  obtain ⟨s, hs, henabled⟩ := List.any_eq_true.1 h
  rw [layers_of_any h]
  exact mem_toList_intercalate (List.mem_map_of_mem (List.mem_filter.2 ⟨hs, henabled⟩)) (hc s)

theorem layersLaw (hx : ∀ s, 'x' ∈ (layer s).toList) : LayersLaw (layers layer) where
  eq_of_filter xs ys h := by
    rw [layers, h, layers]
  eq_absent_iff xs := by
    have hany : (∀ s ∈ xs, s.enabled = false) ↔ xs.any Shadow.enabled = false := by simp
    rw [hany]
    constructor
    · intro h
      by_contra hne
      -- the unit of a length has a letter that is not in `none`
      have hmem := mem_layers hx (by simpa using hne)
      rw [h] at hmem
      exact absurd hmem (by decide)
    · intro h
      rw [layers, layers_of_not_any h]
      rfl
  append xs ys h := by
    have hany : (xs ++ ys).any Shadow.enabled = true := List.any_eq_true.2 h
    rw [layers_of_any hany, List.filter_append, List.map_append]
    cases hxs : xs.any Shadow.enabled <;> cases hys : ys.any Shadow.enabled
    · rw [List.any_append, hxs, hys] at hany
      exact absurd hany Bool.false_ne_true
    · simp [layers_of_not_any hxs, hxs, hys, layers_of_any hys]
    · simp [layers_of_not_any hys, hxs, hys, layers_of_any hxs]
    · rw [String.intercalate_append_of_ne_nil (parts_ne_nil hxs) (parts_ne_nil hys)]
      simp [hxs, hys, layers_of_any]

end Layers

/-- In a layer of `box-shadow` stand lengths, with their unit. -/
theorem x_mem_boxLayer (s : Shadow) : 'x' ∈ s.boxLayer.toList := by
  simp [Shadow.boxLayer, px]

theorem boxShadow_law : LayersLaw boxShadow := layersLaw x_mem_boxLayer

theorem textShadow_law : LayersLaw textShadow :=
  layersLaw fun s => by simp [Shadow.textLayer, px]

end Css

/-! ### Layers that are disabled -/

/-- What is changed at an index so that it is filtered out might as well be removed. -/
theorem filter_modify_eq_filter_eraseIdx {α : Type} {p : α → Bool} {f : α → α}
    (h : ∀ a, p (f a) = false) (as : List α) (i : ℕ) :
    (as.modify i f).filter p = (as.eraseIdx i).filter p := by
  induction as generalizing i with
  | nil => simp
  | cons a as ih =>
    cases i with
    | zero => simp [h]
    | succ i => simp [List.filter_cons, ih]

namespace Button

/-- The button with other layers of shadow in a state. -/
def setShadows (s : State) (shadows : List Shadow) (b : Button) : Button :=
  b.modifyLook s fun l => { l with shadows := shadows }

/-- Rules show of the layers no more than the value that is put together from them. -/
theorem rules_setShadows (base : String) (b : Button) (s : State) {xs ys : List Shadow}
    (h : boxShadow xs = boxShadow ys) :
    (b.setShadows s xs).rules base = (b.setShadows s ys).rules base := by
  have hrest : (b.setShadows s xs).restRule base = (b.setShadows s ys).restRule base := by
    by_cases hs : .default = s
    · subst hs
      simp only [restRule, setShadows, transformCss, look_modifyLook_self, Look.filterCss, h]
      rfl
    · rw [setShadows, setShadows, restRule_modifyLook_of_ne _ b base hs,
        restRule_modifyLook_of_ne _ b base hs]
  have hstate (t : State) :
      (b.setShadows s xs).stateRule base t = (b.setShadows s ys).stateRule base t := by
    by_cases ht : t = s
    · subst ht
      simp only [stateRule, setShadows, transformCss, look_modifyLook_self, Look.filterCss,
        Look.ringCss, h]
      rfl
    · rw [setShadows, setShadows, stateRule_modifyLook_of_ne _ b base ht,
        stateRule_modifyLook_of_ne _ b base ht]
  rw [rules, rules, hrest, funext hstate]
  rfl

/-- **A value of shadows is put together from its enabled layers, and to disable a layer gives the
same stylesheet as to remove it.** -/
theorem disable_eq_remove :
    LayersLaw boxShadow ∧ LayersLaw textShadow ∧
      ∀ (b : Button) (s : State) (i : ℕ),
        (Edit.apply b (.enableShadow s i false)).stylesheet =
          (Edit.apply b (.removeShadow s i)).stylesheet := by
  refine ⟨boxShadow_law, textShadow_law, fun b s i => ?_⟩
  have hfilter := filter_modify_eq_filter_eraseIdx (p := Shadow.enabled)
    (f := fun s => { s with enabled := false }) (fun _ => rfl) (b.look s).shadows i
  have hrules := b.rules_setShadows buttonSelector s (boxShadow_law.eq_of_filter _ _ hfilter)
  exact congrArg (fun rules => Text.trim (sheet rules)) hrules

end Button

end ButtonStyle

import ButtonStyle.Button.Shapes
import ButtonStyle.Proofs.Shape.Value

/-!
# Equality by value of buttons

The shapes of all parts of a button are faithful: two values of a part are equal by value exactly
when they differ at most in the signs of zeros and nothing in them is undefined.  And no part leaves
a member out for such a sign.
-/

namespace ButtonStyle

/-! ### Fills -/

instance : Stop.shape.Faithful := Shape.faithful_record fun a b => by
  show instBEqStop.beq a b = _
  simp [instBEqStop.beq]

instance : Gradient.shape.Faithful := Shape.faithful_record fun a b => by
  show instBEqGradient.beq a b = _
  simp [instBEqGradient.beq]

instance : Fill.shape.Faithful := Shape.faithful_union fun a b => by
  cases a <;> cases b <;> rfl

/-! ### Box, lettering and effects -/

instance : Sides.shape.Faithful := Shape.faithful_record fun a b => by
  show instBEqSides.beq a b = _
  simp [instBEqSides.beq]

instance : Corners.shape.Faithful := Shape.faithful_record fun a b => by
  show instBEqCorners.beq a b = _
  simp [instBEqCorners.beq]

instance : Layout.shape.Faithful := Shape.faithful_record fun a b => by
  show instBEqLayout.beq a b = _
  simp [instBEqLayout.beq]

instance : Shadow.shape.Faithful := Shape.faithful_record fun a b => by
  show instBEqShadow.beq a b = _
  simp [instBEqShadow.beq]

instance : Typography.shape.Faithful := Shape.faithful_record fun a b => by
  show instBEqTypography.beq a b = _
  simp [instBEqTypography.beq]

instance : Icon.shape.Faithful := Shape.faithful_record fun a b => by
  show instBEqIcon.beq a b = _
  simp [instBEqIcon.beq]

instance : Effects.shape.Faithful := Shape.faithful_record fun a b => by
  show instBEqEffects.beq a b = _
  simp [instBEqEffects.beq]

instance : Motion.shape.Faithful := Shape.faithful_record fun a b => by
  show instBEqMotion.beq a b = _
  simp [instBEqMotion.beq]

instance : Interactions.shape.Faithful := Shape.faithful_record fun a b => by
  show instBEqInteractions.beq a b = _
  simp [instBEqInteractions.beq]

instance : Tilt.shape.Faithful := Shape.faithful_record fun a b => by
  show instBEqTilt.beq a b = _
  simp [instBEqTilt.beq]

/-! ### Looks and buttons -/

instance : Ring.shape.Faithful := Shape.faithful_record fun a b => by
  show instBEqRing.beq a b = _
  simp [instBEqRing.beq]

instance : Transform.shape.Faithful := Shape.faithful_record fun a b => by
  show instBEqTransform.beq a b = _
  simp [instBEqTransform.beq]

instance : Filter.shape.Faithful := Shape.faithful_record fun a b => by
  show instBEqFilter.beq a b = _
  simp [instBEqFilter.beq]

instance : Look.shape.Faithful := Shape.faithful_record fun a b => by
  show instBEqLook.beq a b = _
  simp [instBEqLook.beq]

instance : Looks.shape.Faithful := Shape.faithful_record fun a b => by
  show instBEqLooks.beq a b = _
  simp [instBEqLooks.beq]

instance : Button.shape.Faithful := Shape.faithful_record fun a b => by
  show instBEqButton.beq a b = _
  simp [instBEqButton.beq]

/-! ### The quantities of the parts -/

/-- The quantities of a look are as asked in its parts. -/
structure Look.All (p : Quantity → Bool) (l : Look) : Prop where
  background : Fill.shape.all p l.background = true
  opacity : p l.opacity = true
  shadows : ∀ s ∈ l.shadows, Shadow.shape.all p s = true
  ring : ∀ r, l.ring = some r → Ring.shape.all p r = true
  transform : Transform.shape.all p l.transform = true
  filter : ∀ f, l.filter = some f → Filter.shape.all p f = true

/-- The quantities of a button are as asked in its parts. -/
structure Button.All (p : Quantity → Bool) (b : Button) : Prop where
  layout : Layout.shape.all p b.layout = true
  typography : Typography.shape.all p b.typography = true
  icon : Icon.shape.all p b.icon = true
  effects : Effects.shape.all p b.effects = true
  motion : Motion.shape.all p b.motion = true
  interactions : Interactions.shape.all p b.interactions = true
  tilt : Tilt.shape.all p b.transform = true
  look : ∀ s, Look.shape.all p (b.look s) = true

section All

variable {p : Quantity → Bool}

theorem Look.all_of_shape {l : Look} (h : Look.shape.all p l = true) : l.All p := by
  simp only [shape, Shape.all, Fields.all, Bool.and_eq_true] at h
  obtain ⟨hbackground, -, -, hopacity, -, hshadows, hring, htransform, hfilter, -⟩ := h
  refine ⟨hbackground, hopacity, List.all_eq_true.1 hshadows, fun r hr => ?_, htransform,
    fun f hf => ?_⟩
  · rwa [hr] at hring
  · rwa [hf] at hfilter

theorem Button.all_of_shape {b : Button} (h : Button.shape.all p b = true) : b.All p := by
  simp only [shape, Shape.all, Fields.all, Bool.and_eq_true] at h
  obtain ⟨hlayout, htypography, hicon, heffects, hmotion, hinteractions, htilt, hlooks, -⟩ := h
  refine ⟨hlayout, htypography, hicon, heffects, hmotion, hinteractions, htilt, fun s => ?_⟩
  simp only [Looks.shape, Shape.all, Fields.all, Bool.and_eq_true] at hlooks
  obtain ⟨hdefault, hhover, hactive, hfocus, hdisabled, hloading, -⟩ := hlooks
  cases s <;> assumption

end All

/-! ### What is left out

Only rings and filters are left out, and only where there are none. -/

theorem Fill.shape_ignoresSigns : Fill.shape.IgnoresSigns := by
  simp [Fill.shape, Gradient.shape, Stop.shape, Shape.IgnoresSigns, Fields.IgnoresSigns]

theorem Layout.shape_ignoresSigns : Layout.shape.IgnoresSigns := by
  simp [Layout.shape, Sides.shape, Corners.shape, Shape.IgnoresSigns, Fields.IgnoresSigns]

theorem Typography.shape_ignoresSigns : Typography.shape.IgnoresSigns := by
  simp [Typography.shape, Shadow.shape, Shape.IgnoresSigns, Fields.IgnoresSigns]

theorem Motion.shape_ignoresSigns : Motion.shape.IgnoresSigns := by
  simp [Motion.shape, Shape.IgnoresSigns, Fields.IgnoresSigns]

theorem Effects.shape_ignoresSigns : Effects.shape.IgnoresSigns := by
  simp [Effects.shape, Gradient.shape, Stop.shape, Shape.IgnoresSigns, Fields.IgnoresSigns]

theorem Look.shape_ignoresSigns : Look.shape.IgnoresSigns := by
  simp [Look.shape, Fill.shape_ignoresSigns, Shadow.shape, Ring.shape, Transform.shape,
    Filter.shape, Shape.IgnoresSigns, Fields.IgnoresSigns]

end ButtonStyle

import ButtonStyle.Button.Standard
import ButtonStyle.Format
import ButtonStyle.Proofs.TokenDocument

/-!
# Equal buttons have equal texts

A quantity loses the sign of its zero in every text that is made of it: where it is written, where
it is compared with the value that changes nothing, and where it is added to another.  So a button
and the button without the signs of zeros, its plain button, have the same texts
(`generate_plain`).

Main statement: **buttons that are equal by value have the same text in every format, and the same
value for every property** (`generate_eq_of_beq`).
-/

namespace ButtonStyle

open Css

/-! ### Quantities -/

section Measures

variable (x : Quantity)

@[simp] theorem Css.px_plain : px x.plain = px x := congrArg (· ++ "px") x.css_plain

@[simp] theorem Css.deg_plain : deg x.plain = deg x := congrArg (· ++ "deg") x.css_plain

@[simp] theorem Css.percent_plain : percent x.plain = percent x := congrArg (· ++ "%") x.css_plain

@[simp] theorem Css.ms_plain : ms x.plain = ms x := congrArg (· ++ "ms") x.css_plain

@[simp] theorem Css.em_plain : em x.plain = em x := congrArg (· ++ "em") x.css_plain

@[simp] theorem Layout.limit_plain (property : String) :
    limit property x.plain = limit property x := by
  simp [limit]

@[simp] theorem ClassName.positive_plain (name : String) :
    positive name x.plain = positive name x := by
  simp [positive]

end Measures

/-! ### Fills and shadows -/

@[simp] theorem Stop.css_plain (s : Stop) : (Stop.shape.plain s).css = s.css := by
  simp [css, shape, Shape.plain, Fields.plain]

@[simp] theorem Gradient.css_plain (g : Gradient) : (Gradient.shape.plain g).css = g.css := by
  simp [css, shape, Shape.plain, Fields.plain, Function.comp_def]

@[simp] theorem Fill.css_plain (f : Fill) : (Fill.shape.plain f).css = f.css := by
  cases f with
  | solid color => rfl
  | gradient g => exact g.css_plain

@[simp] theorem Shadow.enabled_plain (s : Shadow) :
    (Shadow.shape.plain s).enabled = s.enabled := rfl

@[simp] theorem Shadow.boxLayer_plain (s : Shadow) :
    (Shadow.shape.plain s).boxLayer = s.boxLayer := by
  simp [boxLayer, shape, Shape.plain, Fields.plain]

@[simp] theorem Shadow.textLayer_plain (s : Shadow) :
    (Shadow.shape.plain s).textLayer = s.textLayer := by
  simp [textLayer, shape, Shape.plain, Fields.plain]

section Shadows

variable (shadows : List Shadow)

@[simp] theorem Css.boxShadow_plain :
    boxShadow (shadows.map Shadow.shape.plain) = boxShadow shadows := by
  simp [boxShadow, List.filter_map, Function.comp_def]

@[simp] theorem Css.textShadow_plain :
    textShadow (shadows.map Shadow.shape.plain) = textShadow shadows := by
  simp [textShadow, List.filter_map, Function.comp_def]

end Shadows

@[simp] theorem Ring.css_plain (r : Ring) : (Ring.shape.plain r).css = r.css := by
  simp [css, shape, Shape.plain, Fields.plain]

/-! ### Transforms and filters -/

@[simp] theorem Tilt.terms_plain (t : Tilt) : (Tilt.shape.plain t).terms = t.terms := by
  simp [terms, shape, Shape.plain, Fields.plain]

@[simp] theorem Transform.terms_plain (t : Transform) :
    (Transform.shape.plain t).terms = t.terms := by
  simp [terms, shape, Shape.plain, Fields.plain]

@[simp] theorem Filter.terms_plain (f : Filter) : (Filter.shape.plain f).terms = f.terms := by
  simp [terms, shape, Shape.plain, Fields.plain]

/-! ### Looks -/

section Look

variable (l : Look)

@[simp] theorem Look.background_plain :
    (Look.shape.plain l).background = Fill.shape.plain l.background := rfl

@[simp] theorem Look.textColor_plain : (Look.shape.plain l).textColor = l.textColor := rfl

@[simp] theorem Look.borderColor_plain : (Look.shape.plain l).borderColor = l.borderColor := rfl

@[simp] theorem Look.opacity_plain : (Look.shape.plain l).opacity = l.opacity.plain := rfl

@[simp] theorem Look.cursor_plain : (Look.shape.plain l).cursor = l.cursor := rfl

@[simp] theorem Look.shadows_plain :
    (Look.shape.plain l).shadows = l.shadows.map Shadow.shape.plain := rfl

@[simp] theorem Look.transform_plain :
    (Look.shape.plain l).transform = Transform.shape.plain l.transform := rfl

@[simp] theorem Look.ringCss_plain : (Look.shape.plain l).ringCss = l.ringCss := by
  have hring : (Look.shape.plain l).ring = l.ring.map Ring.shape.plain := rfl
  rw [ringCss, ringCss, hring]
  cases l.ring with
  | none => rfl
  | some r =>
    have henabled : (Ring.shape.plain r).enabled = r.enabled := rfl
    simp [henabled]

@[simp] theorem Look.filterCss_plain : (Look.shape.plain l).filterCss = l.filterCss := by
  have hfilter : (Look.shape.plain l).filter = l.filter.map Filter.shape.plain := rfl
  rw [filterCss, filterCss, hfilter]
  cases l.filter with
  | none => rfl
  | some f => simp

@[simp] theorem Variant.classes_plain (v : Variant) :
    v.classes (Look.shape.plain l) = v.classes l := by
  simp [classes, unqualified]

end Look

/-! ### Parts of the button at rest -/

@[simp] theorem Sides.css_plain (s : Sides) : (Sides.shape.plain s).css = s.css := by
  simp [css, shape, Shape.plain, Fields.plain]

@[simp] theorem Sides.classes_plain (s : Sides) : (Sides.shape.plain s).classes = s.classes := by
  simp [classes, allEqual, pairsEqual, shape, Shape.plain, Fields.plain]

@[simp] theorem Corners.css_plain (c : Corners) : (Corners.shape.plain c).css = c.css := by
  simp [css, shape, Shape.plain, Fields.plain]

@[simp] theorem Corners.classes_plain (c : Corners) :
    (Corners.shape.plain c).classes = c.classes := by
  simp [classes, allEqual, shape, Shape.plain, Fields.plain]

@[simp] theorem Layout.declarations_plain (l : Layout) (borderColor : String) :
    (Layout.shape.plain l).declarations borderColor = l.declarations borderColor := by
  simp [declarations, widthCss, shape, Shape.plain, Fields.plain]

@[simp] theorem Layout.classes_plain (l : Layout) : (Layout.shape.plain l).classes = l.classes := by
  simp [classes, widthClass, shape, Shape.plain, Fields.plain]

@[simp] theorem Typography.declarations_plain (t : Typography) :
    (Typography.shape.plain t).declarations = t.declarations := by
  simp [declarations, shape, Shape.plain, Fields.plain]

@[simp] theorem Typography.classes_plain (t : Typography) :
    (Typography.shape.plain t).classes = t.classes := by
  simp [classes, shape, Shape.plain, Fields.plain]

@[simp] theorem Effects.backdropCss_plain (e : Effects) :
    (Effects.shape.plain e).backdropCss = e.backdropCss := by
  simp [backdropCss, shape, Shape.plain, Fields.plain]

@[simp] theorem Effects.classes_plain (e : Effects) :
    (Effects.shape.plain e).classes = e.classes := by
  simp [classes, shape, Shape.plain, Fields.plain]

@[simp] theorem Motion.css_plain (m : Motion) : (Motion.shape.plain m).css = m.css := by
  simp [css, shape, Shape.plain, Fields.plain]

@[simp] theorem Motion.classes_plain (m : Motion) : (Motion.shape.plain m).classes = m.classes := by
  simp [classes, shape, Shape.plain, Fields.plain]

@[simp] theorem Icon.rule_plain (base : String) (i : Icon) :
    (Icon.shape.plain i).rule base = i.rule base := by
  simp [rule, colorCss, shape, Shape.plain, Fields.plain]

/-! ### Buttons -/

namespace Button

section Plain

variable (b : Button)

@[simp] theorem look_plain (s : State) :
    (Button.shape.plain b).look s = Look.shape.plain (b.look s) := by
  cases s <;> rfl

@[simp] theorem layout_plain : (Button.shape.plain b).layout = Layout.shape.plain b.layout := rfl

@[simp] theorem typography_plain :
    (Button.shape.plain b).typography = Typography.shape.plain b.typography := rfl

@[simp] theorem icon_plain : (Button.shape.plain b).icon = Icon.shape.plain b.icon := rfl

@[simp] theorem effects_plain :
    (Button.shape.plain b).effects = Effects.shape.plain b.effects := rfl

@[simp] theorem motion_plain : (Button.shape.plain b).motion = Motion.shape.plain b.motion := rfl

@[simp] theorem transform_plain :
    (Button.shape.plain b).transform = Tilt.shape.plain b.transform := rfl

@[simp] theorem transformCss_plain (s : State) :
    (Button.shape.plain b).transformCss s = b.transformCss s := by
  simp [transformCss]

@[simp] theorem restRule_plain (base : String) :
    (Button.shape.plain b).restRule base = b.restRule base := by
  have hgap : (Icon.shape.plain b.icon).gap = b.icon.gap.plain := rfl
  simp [restRule, hgap]

@[simp] theorem stateRule_plain (base : String) (s : State) :
    (Button.shape.plain b).stateRule base s = b.stateRule base s := by
  simp [stateRule]

theorem rules_plain (base : String) : (Button.shape.plain b).rules base = b.rules base := by
  simp [rules]

theorem classes_plain : (Button.shape.plain b).classes = b.classes := by
  have hicon : (Icon.shape.plain b.icon).enabled = b.icon.enabled := rfl
  simp [classes, hicon]

theorem tokens_plain : (Button.shape.plain b).tokens = b.tokens := by
  have hget : ∀ p ∈ exportedParts, p.get (Button.shape.plain b) = p.shape.plain (p.get b) := by
    intro p hp
    simp only [exportedParts, List.mem_cons, List.not_mem_nil, or_false] at hp
    rcases hp with rfl | rfl | rfl | rfl | rfl | rfl | rfl | rfl | rfl | rfl | rfl <;> rfl
  have htoken : ∀ p ∈ exportedParts,
      token p.shape (p.get (Button.shape.plain b)) = token p.shape (p.get b) := by
    intro p hp
    rw [hget p hp]
    exact Shape.write_plain Number.compactLiteral_plain p.shape p.ignoresSigns (p.get b)
  rw [tokens, tokenDocument_eq_of_token_eq htoken, tokens]

/-- A button and its plain button have the same texts. -/
theorem generate_plain (format : Format) :
    (Button.shape.plain b).generate format = b.generate format := by
  cases format with
  | css => simp only [generate, stylesheet, stylesheetFor, rules_plain]
  | tailwind => simp only [generate, classList, classes_plain]
  | tokens => exact b.tokens_plain

end Plain

/-- **Buttons that are equal by value have the same texts.** -/
theorem generate_eq_of_beq {a b : Button} (h : (a == b) = true) :
    (∀ format, a.generate format = b.generate format) ∧
    (∀ s, (a.look s).background.css = (b.look s).background.css ∧
      boxShadow (a.look s).shadows = boxShadow (b.look s).shadows ∧
      textShadow (a.look s).shadows = textShadow (b.look s).shadows ∧
      a.transformCss s = b.transformCss s ∧
      (a.look s).filterCss = (b.look s).filterCss ∧
      (a.look s).ringCss = (b.look s).ringCss) ∧
    textShadow a.typography.textShadow = textShadow b.typography.textShadow := by
  have hplain : Button.shape.plain a = Button.shape.plain b :=
    ((Shape.Faithful.beq_iff a b).1 h).1
  have hsame {α : Type} (f : Button → α) (hf : ∀ b, f (Button.shape.plain b) = f b) :
      f a = f b := by
    rw [← hf a, hplain, hf b]
  refine ⟨fun format => hsame (fun b => b.generate format) fun b => b.generate_plain format,
    fun s => ?_, ?_⟩
  · exact ⟨hsame (fun b => (b.look s).background.css) (by simp),
      hsame (fun b => boxShadow (b.look s).shadows) (by simp),
      hsame (fun b => textShadow (b.look s).shadows) (by simp),
      hsame (fun b => b.transformCss s) (by simp),
      hsame (fun b => (b.look s).filterCss) (by simp),
      hsame (fun b => (b.look s).ringCss) (by simp)⟩
  · refine hsame (fun b => textShadow b.typography.textShadow) fun b => ?_
    exact textShadow_plain b.typography.textShadow

/-- The standard button with a number in several places in which the standard button has none or
zero. -/
def withNumber (x : Number) : Button :=
  { standard with
    typography := { standard.typography with letterSpacing := x }
    motion := { standard.motion with delay := x }
    states :=
      { standard.states with
        focus := { standard.states.focus with ring := some ⟨true, x, "red", x⟩ } } }

theorem generate_withNumber_zeros :
    withNumber 0 ≠ withNumber (-0) ∧ (withNumber 0 == withNumber (-0)) = true ∧
    ∀ format, (withNumber 0).generate format = (withNumber (-0)).generate format := by
  have hne : (0 : Number) ≠ -0 := by decide
  have hfaithful : Button.shape.Faithful := inferInstance
  have hbeq : (withNumber 0 == withNumber (-0)) = true :=
    (hfaithful.beq_iff _ _).2 ⟨rfl, by decide⟩
  have hdelay (h : withNumber 0 = withNumber (-0)) : (0 : Number) = -0 :=
    Quantity.finite.inj (congrArg (fun b => b.motion.delay) h)
  exact ⟨fun h => hne (hdelay h), hbeq, (generate_eq_of_beq hbeq).1⟩

end Button

end ButtonStyle

import ButtonStyle.Proofs.ClassList.Values
import ButtonStyle.Proofs.Css.Stylesheet

/-!
# Classes and rules agree

The class list and the stylesheet of a button are made apart from each other.  Main statement: **the
classes hold what the rules declare** (`classes_agree_with_rules`), for the button at rest and for
each state that has classes.  Blanks in a value are replaced by underscores, and a class is left out
only where there is no declaration either, or one that would change nothing.
-/

namespace ButtonStyle

open Css Text ClassName

theorem toList_ite {α : Type} (p : Prop) [Decidable p] (a : α) :
    (if p then some a else none).toList = if p then [a] else [] := by
  split <;> rfl

namespace Button

/-- The classes of a name carry what a rule declares for certain properties: there is one for each,
and its value is that of the property with underscores for the blanks. -/
def Carries (b : Button) (name : String) (r : Rule) (properties : List String) : Prop :=
  (b.valuesOf name).map some = properties.map fun property => (r.value? property).map underscored

theorem carries_of_eq {b : Button} {name : String} {r : Rule} {properties : List String}
    (values : List String) (hvalues : b.valuesOf name = values.map underscored)
    (hr : properties.map r.value? = values.map some) : b.Carries name r properties := by
  have hmap : (properties.map fun property => (r.value? property).map underscored) =
      (properties.map r.value?).map (Option.map underscored) := by
    rw [List.map_map]
    rfl
  rw [Carries, hvalues, hmap, hr, List.map_map, List.map_map]
  rfl

/-! ### The button at rest -/

/-- The rule declares a border by its width, style and color.  The first two are words, so that the
value is put together in one way only. -/
def DeclaresBorder (r : Rule) (width style color : String) : Prop :=
  r.value? "border" = some (width ++ " " ++ style ++ " " ++ color) ∧
    IsUnbroken width ∧ IsUnbroken style

/-- The classes for the box agree with a rule. -/
structure BoxAgrees (b : Button) (r : Rule) : Prop where
  minWidth : b.valuesOf "min-w-" = (r.value? "min-width").toList
  maxWidth : b.valuesOf "max-w-" = (r.value? "max-width").toList
  width : ∃ width, r.value? "width" = some width ∧
    b.valuesOf "w-" = if width = "auto" ∨ width = "100%" then [] else [width]
  border : ∃ width style color, DeclaresBorder r width style color ∧
    (b.valuesOf "border-" = [underscored color] ∨
      b.valuesOf "border-" = [width, underscored color])

/-- The classes for the lettering agree with a rule. -/
structure LetteringAgrees (b : Button) (r : Rule) : Prop where
  font : b.Carries "font-" r ["font-family", "font-weight"]
  text : b.Carries "text-" r ["font-size", "color"]
  letterSpacing : b.Carries "tracking-" r ["letter-spacing"]
  lineHeight : b.Carries "leading-" r ["line-height"]

/-- The classes for effects and transition agree with a rule. -/
structure MotionAgrees (b : Button) (r : Rule) : Prop where
  backdrop : ∃ filter, r.value? "backdrop-filter" = some filter ∧
    (b.valuesOf "backdrop-blur-").map (call "blur") = if filter = absent then [] else [filter]
  transition : ∃ duration easing delay,
    r.value? "transition" = some ("all " ++ duration ++ " " ++ easing ++ " " ++ delay) ∧
    IsUnbroken duration ∧ IsUnbroken delay ∧ b.valuesOf "duration-" = [duration] ∧
    b.valuesOf "ease-" = [underscored easing] ∧ b.valuesOf "delay-" = [delay]

/-- The classes without a qualifier agree with the rule of a button at rest. -/
structure AgreesAtRest (b : Button) (r : Rule) : Prop
    extends b.BoxAgrees r, b.LetteringAgrees r, b.MotionAgrees r where
  background : b.Carries "bg-" r ["background"]
  opacity : b.valuesOf "opacity-" = [] ∨ b.Carries "opacity-" r ["opacity"]
  shadow : b.valuesOf "shadow-" = [] ∨ b.Carries "shadow-" r ["box-shadow"]
  plain : ∃ width borderWidth borderStyle borderColor transform, r.value? "width" = some width ∧
    DeclaresBorder r borderWidth borderStyle borderColor ∧
    r.value? "text-transform" = some transform ∧
    b.plainClasses =
      (if width = "auto" then ["w-auto"] else if width = "100%" then ["w-full"] else []) ++
      (if borderStyle = "solid" then [] else ["border-" ++ borderStyle]) ++
      (if transform = "none" then [] else [transform]) ++
      ["transition-all", "disabled:cursor-not-allowed"] ++
      (if b.icon.enabled then ["[&_svg]:stroke-current"] else [])

section AtRest

variable (b : Button) {r : Rule} (hr : r.value? = b.restValue?)
include hr

theorem declaresBorder :
    DeclaresBorder r (px b.layout.borderWidth) (Named.name b.layout.borderStyle)
      (b.look .default).borderColor := by
  have hstyle : IsUnbroken (Named.name b.layout.borderStyle) := by
    cases b.layout.borderStyle <;> decide
  exact ⟨by rw [hr]; rfl, isUnbroken_px _, hstyle⟩

theorem boxAgrees : b.BoxAgrees r := by
  have hmin : b.valuesOf "min-w-" =
      if 0 < b.layout.minWidth then [px b.layout.minWidth] else [] := by
    simp (disch := decide) [valuesOf_eq, Variant.all, Variant.values]
  have hmax : b.valuesOf "max-w-" =
      if 0 < b.layout.maxWidth then [px b.layout.maxWidth] else [] := by
    simp (disch := decide) [valuesOf_eq, Variant.all, Variant.values]
  have hwidth : b.valuesOf "w-" =
      if b.layout.widthMode = .fixed then [px b.layout.fixedWidth] else [] := by
    simp (disch := decide) [valuesOf_eq, Variant.all, Variant.values]
  have hborder : b.valuesOf "border-" =
      (if 0 < b.layout.borderWidth then [px b.layout.borderWidth] else []) ++
        [underscored (b.look .default).borderColor] := by
    simp (disch := decide) [valuesOf_eq, Variant.all, Variant.values]
  constructor
  case minWidth =>
    rw [hmin, hr]
    exact (toList_ite _ _).symm
  case maxWidth =>
    rw [hmax, hr]
    exact (toList_ite _ _).symm
  case width =>
    refine ⟨b.layout.widthCss, by rw [hr]; rfl, ?_⟩
    simp only [hwidth, Layout.widthCss_eq_auto_iff, Layout.widthCss_eq_full_iff]
    cases hmode : b.layout.widthMode with
    | auto => rfl
    | full => rfl
    | fixed =>
      rw [Layout.widthCss, hmode]
      rfl
  case border =>
    refine ⟨_, _, _, b.declaresBorder hr, ?_⟩
    rw [hborder]
    by_cases h : 0 < b.layout.borderWidth
    · right
      rw [if_pos h]
      rfl
    · left
      rw [if_neg h]
      rfl

theorem letteringAgrees : b.LetteringAgrees r := by
  constructor
  case font =>
    refine carries_of_eq [b.typography.fontFamily, b.typography.fontWeight] ?_ (by rw [hr]; rfl)
    simp (disch := decide) [valuesOf_eq, Variant.all, Variant.values]
  case text =>
    refine carries_of_eq [px b.typography.fontSize, (b.look .default).textColor] ?_
      (by rw [hr]; rfl)
    simp (disch := decide) [valuesOf_eq, Variant.all, Variant.values]
  case letterSpacing =>
    refine carries_of_eq [em b.typography.letterSpacing] ?_ (by rw [hr]; rfl)
    simp (disch := decide) [valuesOf_eq, Variant.all, Variant.values]
  case lineHeight =>
    refine carries_of_eq [b.typography.lineHeight.css] ?_ (by rw [hr]; rfl)
    simp (disch := decide) [valuesOf_eq, Variant.all, Variant.values]

theorem motionAgrees : b.MotionAgrees r := by
  have hblur : b.valuesOf "backdrop-blur-" =
      if 0 < b.effects.backdropBlur then [px b.effects.backdropBlur] else [] := by
    simp (disch := decide) [valuesOf_eq, Variant.all, Variant.values]
  have hduration : b.valuesOf "duration-" = [underscored (ms b.motion.duration)] := by
    simp (disch := decide) [valuesOf_eq, Variant.all, Variant.values]
  have hease : b.valuesOf "ease-" = [underscored b.motion.easing] := by
    simp (disch := decide) [valuesOf_eq, Variant.all, Variant.values]
  have hdelay : b.valuesOf "delay-" = [underscored (ms b.motion.delay)] := by
    simp (disch := decide) [valuesOf_eq, Variant.all, Variant.values]
  rw [underscored_eq_self (isUnbroken_ms _)] at hduration hdelay
  constructor
  case backdrop =>
    have hcall := call_ne_absent "blur" (px b.effects.backdropBlur)
    refine ⟨b.effects.backdropCss, by rw [hr]; rfl, ?_⟩
    rw [hblur, Effects.backdropCss]
    by_cases h : 0 < b.effects.backdropBlur
    · rw [if_pos h, if_pos h, if_neg hcall]
      rfl
    · rw [if_neg h, if_neg h, if_pos rfl]
      rfl
  case transition =>
    exact ⟨_, b.motion.easing, _, by rw [hr]; rfl, isUnbroken_ms _, isUnbroken_ms _, hduration,
      hease, hdelay⟩

theorem agreesAtRest : b.AgreesAtRest r := by
  refine ⟨b.boxAgrees hr, b.letteringAgrees hr, b.motionAgrees hr, ?background, ?opacity, ?shadow,
    ?plain⟩
  case background =>
    refine carries_of_eq [(b.look .default).background.css] ?_ (by rw [hr]; rfl)
    simp (disch := decide) [valuesOf_eq, Variant.all, Variant.values]
  case opacity =>
    by_cases h : (b.look .default).opacity == 1
    · left
      simp (disch := decide) [valuesOf_eq, Variant.all, Variant.values, h]
    · right
      refine carries_of_eq [(b.look .default).opacity.css] ?_ (by rw [hr]; rfl)
      simp (disch := decide) [valuesOf_eq, Variant.all, Variant.values, h]
  case shadow =>
    by_cases h : (b.look .default).shadows = []
    · left
      simp (disch := decide) [valuesOf_eq, Variant.all, Variant.values, h]
    · right
      refine carries_of_eq [boxShadow (b.look .default).shadows] ?_ (by rw [hr]; rfl)
      simp (disch := decide) [valuesOf_eq, Variant.all, Variant.values, h]
  case plain =>
    refine ⟨b.layout.widthCss, _, _, _, Named.name b.typography.textTransform, by rw [hr]; rfl,
      b.declaresBorder hr, by rw [hr]; rfl, ?_⟩
    rw [plainClasses_eq, Layout.plainIn_classes, Typography.plainIn_classes]

end AtRest

/-! ### The other states -/

/-- The classes with the qualifier of a state agree with the rule of that state. -/
structure AgreesInState (b : Button) (qualifier : String) (r : Rule) : Prop where
  background : b.Carries (qualifier ++ "bg-") r ["background"]
  text : b.Carries (qualifier ++ "text-") r ["color"]
  border : b.Carries (qualifier ++ "border-") r ["border-color"]
  opacity : b.valuesOf (qualifier ++ "opacity-") = [] ∨
    b.Carries (qualifier ++ "opacity-") r ["opacity"]
  shadow : b.valuesOf (qualifier ++ "shadow-") = [] ∨
    b.Carries (qualifier ++ "shadow-") r ["box-shadow"]

theorem valuesOf_qualified (b : Button) {v : Variant} (hv : v ∈ Variant.all)
    (hne : v.state ≠ .default) (name : String)
    (hname : name ∈ ["bg-", "text-", "border-", "opacity-", "shadow-"]) :
    b.valuesOf (v.qualifier ++ name) =
      v.values (b.look v.state) (v.qualifier ++ name) := by
  simp only [List.mem_cons, List.not_mem_nil, or_false] at hname
  simp only [Variant.all, List.mem_cons, List.not_mem_nil, or_false] at hv
  rcases hv with rfl | rfl | rfl | rfl
  · exact absurd rfl hne
  all_goals
    rcases hname with rfl | rfl | rfl | rfl | rfl <;>
      simp (disch := decide) [valuesOf_eq, Variant.all, Variant.values]

theorem agreesInState (b : Button) {v : Variant} (hv : v ∈ Variant.all) (hne : v.state ≠ .default)
    {r : Rule} (hr : r.value? = b.stateValue? v.state) : b.AgreesInState v.qualifier r := by
  have hfocus : ∀ v ∈ Variant.all, v.state ≠ .focus := by decide
  have hshadow : r.value? "box-shadow" = some (boxShadow (b.look v.state).shadows) := by
    rw [hr]
    exact congrArg some (if_neg (hfocus v hv))
  constructor
  case background =>
    have hvalues := b.valuesOf_qualified hv hne "bg-" (by decide)
    rw [Variant.values_bg] at hvalues
    exact carries_of_eq [_] hvalues (by rw [hr]; rfl)
  case text =>
    have hvalues := b.valuesOf_qualified hv hne "text-" (by decide)
    rw [Variant.values_text] at hvalues
    exact carries_of_eq [_] hvalues (by rw [hr]; rfl)
  case border =>
    have hvalues := b.valuesOf_qualified hv hne "border-" (by decide)
    rw [Variant.values_border] at hvalues
    exact carries_of_eq [_] hvalues (by rw [hr]; rfl)
  case opacity =>
    have hvalues := b.valuesOf_qualified hv hne "opacity-" (by decide)
    rw [Variant.values_opacity] at hvalues
    split at hvalues
    · exact .inr (carries_of_eq [_] hvalues (by rw [hr]; rfl))
    · exact .inl hvalues
  case shadow =>
    have hvalues := b.valuesOf_qualified hv hne "shadow-" (by decide)
    rw [Variant.values_shadow] at hvalues
    split at hvalues
    · exact .inr (carries_of_eq [_] hvalues (by simp [hshadow]))
    · exact .inl hvalues

/-- **Classes and rules agree.** -/
theorem classes_agree_with_rules (b : Button) (base : String) :
    b.AgreesAtRest (b.restRule base) ∧
    b.AgreesInState "hover:" (b.stateRule base .hover) ∧
    b.AgreesInState "active:" (b.stateRule base .active) ∧
    b.AgreesInState "disabled:" (b.stateRule base .disabled) := by
  have hrest : (b.restRule base).value? = b.restValue? := funext (b.restRule_declares base).value?
  have hstate (v : Variant) (hv : v ∈ Variant.all) (hne : v.state ≠ .default) :
      b.AgreesInState v.qualifier (b.stateRule base v.state) :=
    b.agreesInState hv hne (funext (b.stateRule_declares base v.state).value?)
  refine ⟨b.agreesAtRest hrest, ?_, ?_, ?_⟩
  · exact hstate ⟨.hover, "hover:", true, false, []⟩ (by simp [Variant.all]) (by decide)
  · exact hstate ⟨.active, "active:", false, false, []⟩ (by simp [Variant.all]) (by decide)
  · exact hstate ⟨.disabled, "disabled:", false, true, ["cursor-not-allowed"]⟩
      (by simp [Variant.all]) (by decide)

end Button

end ButtonStyle

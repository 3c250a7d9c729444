import ButtonStyle.Css.Stylesheet
import ButtonStyle.Proofs.Number.Quantity

/-!
# What the values of a stylesheet are composed of

The texts that are given freely, as colors are, stand in a stylesheet among words and measures, and
a separator stands between any two of these pieces (`Composed`).  So a text that is foreign to words,
measures and separators stands in a value only where it stands in one of the texts that were given
(`Composed.lacks`).

Main statement: all values of a stylesheet are composed of the free texts of the button
(`Button.isComposed_of_mem_rules`).
-/

namespace ButtonStyle

namespace Css

/-! ### Composed values -/

/-- What may stand between two pieces of a value. -/
def separators : List String := [" ", ", ", "(", ")"]

/-- Whether a character may stand in a word; no point may. -/
def isWordChar (c : Char) : Bool := c.isAlphanum || c == '-' || c == '%'

/-- Whether a character may stand in a number with its unit. -/
def isMeasureChar (c : Char) : Bool := c.isDigit || "-.%pxdegmsinfNa".toList.contains c

/-- Pieces that stand in values as they are. -/
def fixedPieces : List String :=
  ["circle at center", "at 50% 50%", "0 0 0", "var(--bg-color, white)", "all 200ms ease",
   "spin 1s linear infinite", "pulse 2s cubic-bezier(0.4, 0, 0.6, 1) infinite",
   "bounce 1s infinite", "ping 1s cubic-bezier(0, 0, 0.2, 1) infinite"]

/-- A value that is composed of certain texts, of words, measures and fixed pieces, with a separator
between any two of them. -/
inductive Composed (texts : List String) : String → Prop
  | text {t : String} (h : t ∈ texts) : Composed texts t
  | word {s : String} (h : s.toList.all isWordChar = true) : Composed texts s
  | measure {s : String} (h : s.toList.all isMeasureChar = true) : Composed texts s
  | fixed {s : String} (h : s ∈ fixedPieces) : Composed texts s
  | apart {u v : String} (sep : String) (h : sep ∈ separators) (hu : Composed texts u)
      (hv : Composed texts v) : Composed texts (u ++ sep ++ v)

section Composed

variable {texts : List String}

theorem Composed.empty : Composed texts "" := .word rfl

theorem Composed.spaced {u v : String} (hu : Composed texts u) (hv : Composed texts v) :
    Composed texts (u ++ " " ++ v) := .apart " " (by decide) hu hv

theorem Composed.listed {u v : String} (hu : Composed texts u) (hv : Composed texts v) :
    Composed texts (u ++ ", " ++ v) := .apart ", " (by decide) hu hv

theorem composed_absent : Composed texts absent := .word (by decide)

theorem composed_call {f s : String} (hf : f.toList.all isWordChar = true)
    (hs : Composed texts s) : Composed texts (call f s) := by
  have h := Composed.apart ")" (by decide) (.apart "(" (by decide) (.word hf) hs) .empty
  rwa [String.append_empty] at h

theorem composed_intercalate {sep : String} (hsep : sep ∈ separators) {parts : List String}
    (h : ∀ part ∈ parts, Composed texts part) : Composed texts (sep.intercalate parts) := by
  induction parts with
  | nil => exact .empty
  | cons part parts ih =>
    obtain ⟨hpart, hparts⟩ := List.forall_mem_cons.1 h
    by_cases hnil : parts = []
    · rwa [hnil, String.intercalate_singleton]
    · rw [String.intercalate_cons_of_ne_nil hnil]
      exact .apart sep hsep hpart (ih hparts)

theorem composed_joined {sep : String} (hsep : sep ∈ separators) {parts : List String}
    (h : ∀ part ∈ parts, Composed texts part) : Composed texts (joined sep parts) := by
  unfold joined
  split
  · exact composed_absent
  · exact composed_intercalate hsep h

@[simp] theorem forall_mem_unlessIdentity {P : String → Prop} {identity : Bool} {part : String} :
    (∀ s ∈ unlessIdentity identity part, P s) ↔ (identity = false → P part) := by
  cases identity <;> simp [unlessIdentity]

/-! ### Measures -/

theorem all_isMeasureChar_css (x : Quantity) : x.css.toList.all isMeasureChar = true := by
  cases x with
  | finite x => exact x.all_css (by decide) (by decide) (by decide)
  | infinite negative => cases negative <;> decide
  | undefined => decide

theorem composed_number (x : Quantity) : Composed texts x.css := .measure (all_isMeasureChar_css x)

/-- A number with its unit. -/
theorem composed_measure (x : Quantity) {unit : String}
    (h : unit.toList.all isMeasureChar = true) : Composed texts (x.css ++ unit) := by
  refine .measure ?_
  rw [String.toList_append, List.all_append, all_isMeasureChar_css, h]
  rfl

theorem composed_px (x : Quantity) : Composed texts (px x) := composed_measure x (by decide)

theorem composed_deg (x : Quantity) : Composed texts (deg x) := composed_measure x (by decide)

theorem composed_percent (x : Quantity) : Composed texts (percent x) :=
  composed_measure x (by decide)

theorem composed_ms (x : Quantity) : Composed texts (ms x) := composed_measure x (by decide)

theorem composed_em (x : Quantity) : Composed texts (em x) := composed_measure x (by decide)

end Composed

end Css

open Css

/-! ### Free texts -/

/-- The colors of a fill. -/
def Fill.texts : Fill → List String
  | .solid color => [color]
  | .gradient g => g.stops.map Stop.color

/-- The free texts of a look that stand in a stylesheet. -/
def Look.texts (l : Look) : List String :=
  l.background.texts ++ [l.textColor, l.borderColor] ++ l.shadows.map Shadow.color ++
    (l.ring.map Ring.color).toList

/-- The free texts of a button that stand in its stylesheet. -/
def Button.texts (b : Button) : List String :=
  [b.typography.fontFamily, b.typography.fontWeight] ++
    b.typography.textShadow.map Shadow.color ++ [b.icon.color, b.motion.easing] ++
    (Named.all : List State).flatMap fun s => (b.look s).texts

/-! ### Fills and shadows -/

section Values

variable {texts : List String}

theorem Stop.composed_css {s : Stop} (h : s.color ∈ texts) : Composed texts s.css :=
  .spaced (.text h) (composed_percent s.position)

theorem Gradient.composed_css {g : Gradient} (h : g.stops.map Stop.color ⊆ texts) :
    Composed texts g.css := by
  have hstops : Composed texts (String.intercalate ", " (g.stops.map Stop.css)) := by
    refine composed_intercalate (by decide) fun part hpart => ?_
    obtain ⟨s, hs, rfl⟩ := List.mem_map.1 hpart
    exact s.composed_css (h (List.mem_map_of_mem hs))
  have hcenter : Composed texts "circle at center" := .fixed (by decide)
  have hmiddle : Composed texts "at 50% 50%" := .fixed (by decide)
  unfold css
  generalize String.intercalate ", " (g.stops.map Stop.css) = stops at *
  cases g.kind with
  | linear => exact composed_call (by decide) (.listed (composed_deg g.angle) hstops)
  | radial =>
    have hspelling : "circle at center, " = "circle at center" ++ ", " := by decide
    exact composed_call (by decide) (hspelling ▸ .listed hcenter hstops)
  | conic =>
    have hspelling : "from " ++ deg g.angle ++ " at 50% 50%, " ++ stops =
        "from" ++ " " ++ deg g.angle ++ " " ++ "at 50% 50%" ++ ", " ++ stops := by
      have hfrom : "from " = "from" ++ " " := by decide
      have hat : " at 50% 50%, " = " " ++ "at 50% 50%" ++ ", " := by decide
      simp only [hfrom, hat, String.append_assoc]
    refine composed_call (by decide) (hspelling ▸ .listed (.spaced ?_ hmiddle) hstops)
    exact .spaced (.word (by decide)) (composed_deg g.angle)

theorem Fill.composed_css {f : Fill} (h : f.texts ⊆ texts) : Composed texts f.css := by
  cases f with
  | solid color => exact .text (h List.mem_cons_self)
  | gradient g => exact g.composed_css h

theorem Shadow.composed_boxLayer {s : Shadow} (h : s.color ∈ texts) :
    Composed texts s.boxLayer := by
  have hplaced : Composed texts (px s.x ++ " " ++ px s.y ++ " " ++ px s.blur ++ " " ++
      px s.spread ++ " " ++ s.color) :=
    .spaced (.spaced (.spaced (.spaced (composed_px _) (composed_px _)) (composed_px _))
      (composed_px _)) (.text h)
  have hinset : Composed texts "inset" := .word (by decide)
  unfold boxLayer
  cases s.inset with
  | false => simpa [String.append_assoc] using hplaced
  | true =>
    have hspelling : "inset " = "inset" ++ " " := by decide
    simpa [hspelling, String.append_assoc] using hinset.spaced hplaced

theorem Shadow.composed_textLayer {s : Shadow} (h : s.color ∈ texts) :
    Composed texts s.textLayer :=
  .spaced (.spaced (.spaced (composed_px _) (composed_px _)) (composed_px _)) (.text h)

/-- The layers that show, whichever property they are for. -/
theorem composed_layers {layer : Shadow → String} {shadows : List Shadow}
    (h : shadows.map Shadow.color ⊆ texts)
    (hlayer : ∀ s : Shadow, s.color ∈ texts → Composed texts (layer s)) :
    Composed texts (joined ", " ((shadows.filter Shadow.enabled).map layer)) := by
  refine composed_joined (by decide) fun part hpart => ?_
  obtain ⟨s, hs, rfl⟩ := List.mem_map.1 hpart
  exact hlayer s (h (List.mem_map_of_mem ((List.mem_filter.1 hs).1)))

theorem Ring.composed_css {r : Ring} (h : r.color ∈ texts) : Composed texts r.css := by
  have hflat : Composed texts "0 0 0" := .fixed (by decide)
  have hsurface : Composed texts surface := .fixed (by decide)
  have hspread : Composed texts ((r.width.add r.offset).css ++ "px") := by
    refine .measure ?_
    have hunit : "px".toList.all isMeasureChar = true := by decide
    rw [String.toList_append, List.all_append, all_isMeasureChar_css, hunit]
    rfl
  have hspelling : r.css = "0 0 0" ++ " " ++ px r.offset ++ " " ++ surface ++ ", " ++ "0 0 0" ++
      " " ++ ((r.width.add r.offset).css ++ "px") ++ " " ++ r.color := by
    have hstart : "0 0 0 " = "0 0 0" ++ " " := by decide
    have hnext : ", 0 0 0 " = ", " ++ "0 0 0" ++ " " := by decide
    have hunit : "px " = "px" ++ " " := by decide
    simp only [css, hstart, hnext, hunit, String.append_assoc]
  rw [hspelling]
  exact .spaced (.spaced (.listed (.spaced (.spaced hflat (composed_px _)) hsurface) hflat)
    hspread) (.text h)

/-! ### Transforms and filters -/

theorem Tilt.composed_terms (t : Tilt) : ∀ part ∈ t.terms, Composed texts part := by
  rw [terms, forall_mem_unlessIdentity]
  intro _
  exact .spaced (composed_call (by decide) (composed_px _))
    (composed_call (by decide) (composed_deg _))

theorem Transform.composed_terms (t : Transform) : ∀ part ∈ t.terms, Composed texts part := by
  simp only [terms, List.forall_mem_append, forall_mem_unlessIdentity]
  have hpx (f : String) (x : Quantity) (hf : f.toList.all isWordChar = true) :
      Composed texts (call f (px x)) := composed_call hf (composed_px x)
  have hdeg (f : String) (x : Quantity) (hf : f.toList.all isWordChar = true) :
      Composed texts (call f (deg x)) := composed_call hf (composed_deg x)
  exact ⟨⟨⟨⟨⟨fun _ => composed_call (by decide) (composed_number _), fun _ => hpx _ _ (by decide)⟩,
    fun _ => hpx _ _ (by decide)⟩, fun _ => hdeg _ _ (by decide)⟩, fun _ => hdeg _ _ (by decide)⟩,
    fun _ => hdeg _ _ (by decide)⟩

theorem Filter.composed_terms (f : Filter) : ∀ part ∈ f.terms, Composed texts part := by
  simp only [terms, List.forall_mem_append, forall_mem_unlessIdentity]
  have hpercent (g : String) (x : Quantity) (hg : g.toList.all isWordChar = true) :
      Composed texts (call g (percent x)) := composed_call hg (composed_percent x)
  exact ⟨⟨⟨fun _ => composed_call (by decide) (composed_px _),
    fun _ => hpercent _ _ (by decide)⟩, fun _ => hpercent _ _ (by decide)⟩,
    fun _ => hpercent _ _ (by decide)⟩

theorem Button.composed_transformCss (b : Button) (s : State) :
    Composed texts (b.transformCss s) :=
  composed_joined (by decide)
    (List.forall_mem_append.2 ⟨b.transform.composed_terms, (b.look s).transform.composed_terms⟩)

/-! ### Looks -/

section Look

variable {l : Look}

theorem Look.composed_background (h : l.texts ⊆ texts) : Composed texts l.background.css :=
  Fill.composed_css fun _ ht => h (by simp [Look.texts, ht])

theorem Look.composed_textColor (h : l.texts ⊆ texts) : Composed texts l.textColor :=
  .text (h (by simp [Look.texts]))

theorem Look.borderColor_mem (h : l.texts ⊆ texts) : l.borderColor ∈ texts :=
  h (by simp [Look.texts])

theorem Look.composed_boxShadow (h : l.texts ⊆ texts) : Composed texts (boxShadow l.shadows) :=
  composed_layers (fun _ ht => h (by simp [Look.texts, List.mem_map.1 ht]))
    fun _ => Shadow.composed_boxLayer

theorem Look.composed_ringCss (h : l.texts ⊆ texts) : Composed texts l.ringCss := by
  unfold ringCss
  split
  · next r hring =>
    have hcolor : r.color ∈ texts := h (by simp [Look.texts, hring])
    split
    · exact Ring.composed_css hcolor
    · exact composed_absent
  · exact composed_absent

theorem Look.composed_filterCss (l : Look) : Composed texts l.filterCss := by
  unfold filterCss
  cases l.filter with
  | none => exact composed_absent
  | some f => exact composed_joined (by decide) f.composed_terms

end Look

/-! ### Declarations -/

/-- A declaration whose property is a word and whose value is composed of certain texts. -/
structure Css.Declaration.IsComposed (texts : List String) (d : Declaration) : Prop where
  property : d.property.toList.all isWordChar = true
  value : Composed texts d.value

theorem Css.Declaration.IsComposed.of_value {property value : String}
    (hp : property.toList.all isWordChar = true) (hv : Composed texts value) :
    Declaration.IsComposed texts ⟨property, value⟩ := ⟨hp, hv⟩

theorem composed_textTransform (t : TextTransform) : Composed texts (Named.name t) :=
  .word (by cases t <;> decide)

theorem composed_borderStyle (s : BorderStyle) : Composed texts (Named.name s) :=
  .word (by cases s <;> decide)

theorem composed_cursor (c : Cursor) : Composed texts (Named.name c) :=
  .word (by cases c <;> decide)

theorem Layout.isComposed_limit {property : String} (x : Quantity)
    (h : property.toList.all isWordChar = true) :
    ∀ d ∈ limit property x, d.IsComposed texts := by
  unfold limit
  split
  · exact List.forall_mem_singleton.2 ⟨h, composed_px x⟩
  · exact List.forall_mem_nil _

theorem Layout.isComposed_declarations (l : Layout) {borderColor : String}
    (h : borderColor ∈ texts) : ∀ d ∈ l.declarations borderColor, d.IsComposed texts := by
  have hfour (a b c d : Quantity) :
      Composed texts (px a ++ " " ++ px b ++ " " ++ px c ++ " " ++ px d) :=
    .spaced (.spaced (.spaced (composed_px a) (composed_px b)) (composed_px c)) (composed_px d)
  have hwidth : Composed texts l.widthCss := by
    unfold widthCss
    split
    · exact .word (by decide)
    · exact .word (by decide)
    · exact composed_px _
  have hborder : Composed texts (px l.borderWidth ++ " " ++ Named.name l.borderStyle ++ " " ++
      borderColor) := .spaced (.spaced (composed_px _) (composed_borderStyle _)) (.text h)
  simp only [declarations, List.forall_mem_append, List.forall_mem_cons]
  exact ⟨⟨⟨.of_value (by decide) (hfour _ _ _ _), .of_value (by decide) (hfour _ _ _ _),
    .of_value (by decide) hborder, .of_value (by decide) hwidth, List.forall_mem_nil _⟩,
    isComposed_limit _ (by decide)⟩, isComposed_limit _ (by decide)⟩

theorem Typography.isComposed_declarations {t : Typography} (hfamily : t.fontFamily ∈ texts)
    (hweight : t.fontWeight ∈ texts) (hshadow : t.textShadow.map Shadow.color ⊆ texts) :
    ∀ d ∈ t.declarations, d.IsComposed texts := by
  have hlayers : Composed texts (Css.textShadow t.textShadow) :=
    composed_layers hshadow fun _ => Shadow.composed_textLayer
  simp only [declarations, List.forall_mem_cons]
  exact ⟨.of_value (by decide) (.text hfamily), .of_value (by decide) (composed_px _),
    .of_value (by decide) (.text hweight), .of_value (by decide) (composed_em _),
    .of_value (by decide) (composed_number _), .of_value (by decide) (composed_textTransform _),
    .of_value (by decide) hlayers, List.forall_mem_nil _⟩

theorem Effects.composed_backdropCss (e : Effects) : Composed texts e.backdropCss := by
  unfold backdropCss
  split
  · exact composed_call (by decide) (composed_px _)
  · exact composed_absent

theorem Motion.composed_css {m : Motion} (h : m.easing ∈ texts) : Composed texts m.css := by
  have hspelling : "all " = "all" ++ " " := by decide
  have hall : Composed texts "all" := .word (by decide)
  unfold css
  rw [hspelling]
  exact .spaced (.spaced (.spaced hall (composed_ms _)) (.text h)) (composed_ms _)

theorem Icon.composed_colorCss {i : Icon} (h : i.color ∈ texts) : Composed texts i.colorCss := by
  unfold colorCss
  split
  · exact .word (by decide)
  · exact .text h

end Values

namespace Button

/-! ### The rules -/

variable (b : Button)

theorem look_texts_subset (s : State) : (b.look s).texts ⊆ b.texts := by
  have hs : s ∈ (Named.all : List State) := by cases s <;> decide
  exact fun t ht => List.mem_append_right _ (List.mem_flatMap.2 ⟨s, hs, ht⟩)

theorem isComposed_restRule (base : String) :
    ∀ d ∈ (b.restRule base).declarations, d.IsComposed b.texts := by
  have hlook := b.look_texts_subset .default
  have hlayout : ∀ d ∈ b.layout.declarations (b.look .default).borderColor,
      d.IsComposed b.texts := b.layout.isComposed_declarations (Look.borderColor_mem hlook)
  have htypography : ∀ d ∈ b.typography.declarations, d.IsComposed b.texts :=
    Typography.isComposed_declarations (by simp [texts]) (by simp [texts])
      fun t ht => by simp [texts, List.mem_map.1 ht]
  have heasing : b.motion.easing ∈ b.texts := by simp [texts]
  simp only [restRule, List.forall_mem_append, List.forall_mem_cons]
  exact ⟨⟨hlayout, htypography⟩,
    .of_value (by decide) (Look.composed_background hlook),
    .of_value (by decide) (Look.composed_textColor hlook),
    .of_value (by decide) (Look.composed_boxShadow hlook),
    .of_value (by decide) (composed_number _),
    .of_value (by decide) (Look.composed_filterCss _),
    .of_value (by decide) b.effects.composed_backdropCss,
    .of_value (by decide) (Motion.composed_css heasing),
    .of_value (by decide) (composed_cursor _),
    .of_value (by decide) (b.composed_transformCss _),
    .of_value (by decide) (.word (by decide)),
    .of_value (by decide) (.word (by decide)),
    .of_value (by decide) (.word (by decide)),
    .of_value (by decide) (composed_px _),
    .of_value (by decide) (.word (by decide)),
    .of_value (by decide) (.word (by decide)),
    .of_value (by decide) (.word (by decide)), List.forall_mem_nil _⟩

theorem isComposed_iconRule (base : String) :
    ∀ d ∈ (b.icon.rule base).declarations, d.IsComposed b.texts := by
  have hcolor : b.icon.color ∈ b.texts := by simp [texts]
  have hanimation : ∀ value, b.icon.animation.css? = some value → value ∈ fixedPieces := by
    cases b.icon.animation <;> simp [IconAnimation.css?, fixedPieces]
  simp only [Icon.rule, List.forall_mem_append, List.forall_mem_cons]
  refine ⟨⟨.of_value (by decide) (composed_px _),
    .of_value (by decide) (composed_px _),
    .of_value (by decide) (Icon.composed_colorCss hcolor),
    .of_value (by decide) (.fixed (by decide)),
    .of_value (by decide) (composed_call (by decide) (composed_deg _)), List.forall_mem_nil _⟩,
    fun d hd => ?_⟩
  obtain ⟨value, hvalue, rfl⟩ := Option.map_eq_some_iff.1 (Option.mem_toList.1 hd)
  exact .of_value (by decide) (.fixed (hanimation value hvalue))

theorem isComposed_stateRule (base : String) (s : State) :
    ∀ d ∈ (b.stateRule base s).declarations, d.IsComposed b.texts := by
  have hlook := b.look_texts_subset s
  have hshadow : Composed b.texts
      (if s = .focus then (b.look s).ringCss else boxShadow (b.look s).shadows) := by
    split
    · exact Look.composed_ringCss hlook
    · exact Look.composed_boxShadow hlook
  have hnone (property : String) (h : property.toList.all isWordChar = true) (p : Prop)
      [Decidable p] :
      ∀ d ∈ (if p then [⟨property, "none"⟩] else [] : List Declaration), d.IsComposed b.texts := by
    split
    · exact List.forall_mem_singleton.2 (.of_value h (.word (by decide)))
    · exact List.forall_mem_nil _
  simp only [stateRule, List.forall_mem_append, List.forall_mem_cons]
  exact ⟨⟨hnone _ (by decide) _,
    .of_value (by decide) (Look.composed_background hlook),
    .of_value (by decide) (Look.composed_textColor hlook),
    .of_value (by decide) (.text (Look.borderColor_mem hlook)),
    .of_value (by decide) hshadow,
    .of_value (by decide) (composed_number _),
    .of_value (by decide) (Look.composed_filterCss _),
    .of_value (by decide) (composed_cursor _),
    .of_value (by decide) (b.composed_transformCss _), List.forall_mem_nil _⟩,
    hnone _ (by decide) _⟩

theorem forall_mem_rules {base : String} {P : Rule → Prop} (hrest : P (b.restRule base))
    (hicon : P (b.icon.rule base)) (hstate : ∀ s, P (b.stateRule base s)) :
    ∀ r ∈ b.rules base, P r := by
  refine List.forall_mem_cons.2 ⟨hrest, List.forall_mem_cons.2 ⟨hicon, fun r hr => ?_⟩⟩
  obtain ⟨s, -, rfl⟩ := List.mem_map.1 hr
  exact hstate s

/-- **The values of a stylesheet are composed of the free texts of the button.** -/
theorem isComposed_of_mem_rules (base : String) :
    ∀ r ∈ b.rules base, ∀ d ∈ r.declarations, d.IsComposed b.texts :=
  b.forall_mem_rules (b.isComposed_restRule base) (b.isComposed_iconRule base)
    (b.isComposed_stateRule base)

end Button

/-! ### What stands in no value -/

namespace Css

/-- A text has no character in common with another one, so that it ends the other where it stands. -/
def Separates (sep p : List Char) : Prop := ∀ c ∈ sep, c ∉ p

/-- Only the characters of the text are gone through. -/
instance (sep p : List Char) : Decidable (Separates sep p) := List.decidableBAll (· ∉ p) sep

/-- A text that holds no separator and that no other fixed part of a value holds. -/
structure Foreign (p : List Char) : Prop where
  separators : ∀ sep ∈ Css.separators, Separates sep.toList p
  word : p.all isWordChar = false
  measure : p.all isMeasureChar = false
  fixed : ∀ s ∈ fixedPieces, ¬ p <:+: s.toList

section Infix

variable {p u v : List Char}

theorem prefix_of_prefix_append_cons {c : Char} (hc : c ∉ p) (h : p <+: u ++ c :: v) : p <+: u := by
  obtain ⟨t, ht⟩ := h
  rcases List.append_eq_append_iff.1 ht with ⟨a, rfl, -⟩ | ⟨a, rfl, ha⟩
  · exact List.prefix_append _ _
  · cases a with
    | nil => simp
    | cons d a =>
      obtain ⟨rfl, -⟩ := List.cons.inj ha
      exact absurd (by simp) hc

/-- What holds no `c` stands on one side of each `c`. -/
theorem infix_append_cons {c : Char} (hc : c ∉ p) (h : p <:+: u ++ c :: v) :
    p <:+: u ∨ p <:+: v := by
  induction u with
  | nil =>
    rcases List.infix_cons_iff.1 h with h | h
    · exact .inl (prefix_of_prefix_append_cons (u := []) hc h).isInfix
    · exact .inr h
  | cons d u ih =>
    rcases List.infix_cons_iff.1 h with h | h
    · exact .inl (prefix_of_prefix_append_cons (u := d :: u) hc h).isInfix
    · exact (ih h).imp_left fun h => h.trans (List.suffix_cons d u).isInfix

theorem infix_append_append {sep : List Char} (hne : sep ≠ []) (hsep : Separates sep p)
    (h : p <:+: u ++ sep ++ v) : p <:+: u ∨ p <:+: v := by
  induction sep generalizing u with
  | nil => exact absurd rfl hne
  | cons c sep ih =>
    obtain ⟨hc, hsep⟩ := List.forall_mem_cons.1 hsep
    rw [List.append_assoc, List.cons_append] at h
    rcases infix_append_cons hc h with h | h
    · exact .inl h
    · by_cases hnil : sep = []
      · rw [hnil] at h
        exact .inr h
      · rcases ih (u := []) hnil hsep (by simpa using h) with h | h
        · exact .inl (h.trans List.nil_infix)
        · exact .inr h

theorem not_infix_of_all {f : Char → Bool} (hp : p.all f = false) (hu : u.all f = true) :
    ¬ p <:+: u := by
  intro h
  obtain ⟨c, hc, hf⟩ := List.all_eq_false.1 hp
  exact hf (List.all_eq_true.1 hu c (h.subset hc))

end Infix

variable {p : List Char} {texts : List String}

/-- **A text that is foreign to values stands only in the texts of which they are composed.** -/
theorem Composed.lacks (hp : Foreign p) (ht : ∀ t ∈ texts, ¬ p <:+: t.toList) {s : String}
    (hs : Composed texts s) : ¬ p <:+: s.toList := by
  induction hs with
  | text h => exact ht _ h
  | word h => exact not_infix_of_all hp.word h
  | measure h => exact not_infix_of_all hp.measure h
  | fixed h => exact hp.fixed _ h
  | apart sep hsep _ _ ihu ihv =>
    have hne : ∀ sep ∈ separators, sep.toList ≠ [] := by decide
    rw [String.toList_append, String.toList_append]
    intro h
    rcases infix_append_append (hne sep hsep) (hp.separators sep hsep) h with h | h
    · exact ihu h
    · exact ihv h

theorem Declaration.IsComposed.value_lacks (hp : Foreign p) (ht : ∀ t ∈ texts, ¬ p <:+: t.toList)
    {d : Declaration} (hd : d.IsComposed texts) : ¬ p <:+: d.value.toList :=
  hd.value.lacks hp ht

theorem foreign_newline : Foreign ['\n'] :=
  ⟨by decide, by decide, by decide, by decide +kernel⟩

theorem foreign_buttonSelector : Foreign buttonSelector.toList :=
  ⟨by decide, by decide, by decide, by decide +kernel⟩

end Css

end ButtonStyle

import ButtonStyle.Button.Standard
import ButtonStyle.Proofs.Css.Reading
import ButtonStyle.Proofs.Text.Trim

/-!
# Stylesheets are read back

Main statement: **a stylesheet is read, line by line, as seven rules and the animations**
(`readSheet_stylesheet`), the rules being those for the button at rest, for its icon and for the
other states, and each declaring for each property what the button has for it, and nothing twice.
Of the free texts in it only newlines are excluded: braces, colons and semicolons do no harm.
-/

namespace ButtonStyle

open Css

/-! ### What the rules declare -/

/-- The rule declares no property twice, and for each property the given value, if there is one. -/
structure Css.Rule.Declares (r : Rule) (value? : String → Option String) : Prop where
  once : (r.declarations.map Declaration.property).Nodup
  value? : ∀ property, r.value? property = value? property

/-- The value of a property among declarations, if it is declared. -/
def Css.valueIn (ds : List Declaration) (property : String) : Option String :=
  (ds.find? fun d => d.property == property).map Declaration.value

section ValueIn

variable {ds es : List Declaration} {property : String}

theorem Css.Rule.value?_eq (r : Rule) (property : String) :
    r.value? property = valueIn r.declarations property := rfl

@[simp] theorem Css.valueIn_nil : valueIn [] property = none := rfl

@[simp] theorem Css.valueIn_cons {d : Declaration} : valueIn (d :: ds) property =
    if property = d.property then some d.value else valueIn ds property := by
  unfold valueIn
  by_cases h : property = d.property
  · simp [h]
  · simp [beq_false_of_ne (Ne.symm h), h]

@[simp] theorem Css.valueIn_append : valueIn (ds ++ es) property =
    (valueIn ds property).or (valueIn es property) := by
  simp [valueIn, Option.map_or]

@[simp] theorem Css.valueIn_ite {p : Prop} [Decidable p] : valueIn (if p then ds else []) property =
    if p then valueIn ds property else none := by
  split <;> rfl

end ValueIn

/-- The value of a property for a button at rest. -/
def Button.restValue? (b : Button) : String → Option String
  | "padding" => some b.layout.padding.css
  | "border-radius" => some b.layout.radius.css
  | "border" => some (px b.layout.borderWidth ++ " " ++ Named.name b.layout.borderStyle ++ " " ++
      (b.look .default).borderColor)
  | "width" => some b.layout.widthCss
  | "min-width" => if 0 < b.layout.minWidth then some (px b.layout.minWidth) else none
  | "max-width" => if 0 < b.layout.maxWidth then some (px b.layout.maxWidth) else none
  | "font-family" => some b.typography.fontFamily
  | "font-size" => some (px b.typography.fontSize)
  | "font-weight" => some b.typography.fontWeight
  | "letter-spacing" => some (em b.typography.letterSpacing)
  | "line-height" => some b.typography.lineHeight.css
  | "text-transform" => some (Named.name b.typography.textTransform)
  | "text-shadow" => some (textShadow b.typography.textShadow)
  | "background" => some (b.look .default).background.css
  | "color" => some (b.look .default).textColor
  | "box-shadow" => some (boxShadow (b.look .default).shadows)
  | "opacity" => some (b.look .default).opacity.css
  | "filter" => some (b.look .default).filterCss
  | "backdrop-filter" => some b.effects.backdropCss
  | "transition" => some b.motion.css
  | "cursor" => some (Named.name (b.look .default).cursor)
  | "transform" => some (b.transformCss .default)
  | "display" => some "inline-flex"
  | "align-items" => some "center"
  | "justify-content" => some "center"
  | "gap" => some (px b.icon.gap)
  | "position" => some "relative"
  | "overflow" => some "hidden"
  | "user-select" => some "none"
  | _ => none

/-- The value of a property for an icon. -/
def Icon.value? (i : Icon) : String → Option String
  | "width" => some (px i.size)
  | "height" => some (px i.size)
  | "color" => some i.colorCss
  | "transition" => some "all 200ms ease"
  | "transform" => some (call "rotate" (deg i.rotate))
  | "animation" => i.animation.css?
  | _ => none

/-- The value of a property for a button in a state other than at rest, from the look of that state
alone. -/
def Button.stateValue? (b : Button) (s : State) : String → Option String
  | "outline" => if s = .focus then some "none" else none
  | "background" => some (b.look s).background.css
  | "color" => some (b.look s).textColor
  | "border-color" => some (b.look s).borderColor
  | "box-shadow" => some (if s = .focus then (b.look s).ringCss else boxShadow (b.look s).shadows)
  | "opacity" => some (b.look s).opacity.css
  | "filter" => some (b.look s).filterCss
  | "cursor" => some (Named.name (b.look s).cursor)
  | "transform" => some (b.transformCss s)
  | "pointer-events" => if s = .disabled then some "none" else none
  | _ => none

namespace Button

variable (b : Button)

theorem restRule_declares (base : String) : (b.restRule base).Declares b.restValue? := by
  constructor
  · simp only [restRule, Layout.declarations, Layout.limit, Typography.declarations,
      List.map_append, apply_ite (List.map Declaration.property), List.map_cons, List.map_nil]
    split <;> split <;> decide
  · intro property
    rw [Rule.value?_eq]
    unfold restValue?
    split <;> simp_all [restRule, Layout.declarations, Layout.limit, Typography.declarations]

theorem iconRule_declares (base : String) : (b.icon.rule base).Declares b.icon.value? := by
  constructor
  · simp only [Icon.rule, List.map_append, List.map_cons, List.map_nil]
    cases b.icon.animation <;> decide
  · intro property
    rw [Rule.value?_eq]
    unfold Icon.value?
    cases hvalue : b.icon.animation.css? <;> split <;> simp_all [Icon.rule]

theorem stateRule_declares (base : String) (s : State) :
    (b.stateRule base s).Declares (b.stateValue? s) := by
  constructor
  · simp only [stateRule, List.map_append, List.map_cons, List.map_nil]
    split <;> split <;> decide
  · intro property
    rw [Rule.value?_eq]
    unfold stateValue?
    split <;> simp_all [stateRule]

/-! ### Every rule is legible -/

theorem comment_of_mem_rules (base : String) :
    ∀ r ∈ b.rules base, ∀ text ∈ r.comment, '\n' ∉ text.toList := by
  refine b.forall_mem_rules (by simp [restRule]) (by simp [Icon.rule]) fun s text htext => ?_
  obtain rfl : "State: " ++ s.title = text := Option.some.inj htext
  cases s <;> decide

theorem selectors_of_mem_rules : ∀ r ∈ b.rules buttonSelector,
    r.selectors ≠ [] ∧ ∀ s ∈ r.selectors, ',' ∉ s.toList ∧ '\n' ∉ s.toList := by
  refine b.forall_mem_rules ?_ ?_ fun s => ?_
  · simp only [restRule]
    decide
  · simp only [Icon.rule]
    decide
  · simp only [stateRule]
    cases s <;> decide

theorem isLegible_of_mem_rules (h : ∀ t ∈ b.texts, '\n' ∉ t.toList) :
    ∀ r ∈ b.rules buttonSelector, r.IsLegible := by
  intro r hr
  have hcomposed := b.isComposed_of_mem_rules buttonSelector r hr
  have hword {c : Char} (hc : isWordChar c = false) {d : Declaration} (hd : d ∈ r.declarations) :
      c ∉ d.property.toList := by
    intro hmem
    have hall := List.all_eq_true.1 (hcomposed d hd).property c hmem
    rw [hc] at hall
    exact Bool.false_ne_true hall
  obtain ⟨hne, hselectors⟩ := b.selectors_of_mem_rules r hr
  refine ⟨b.comment_of_mem_rules buttonSelector r hr, hne, hselectors,
    fun d hd => ⟨hword (by decide) hd, hword (by decide) hd⟩, fun d hd hmem => ?_⟩
  refine (hcomposed d hd).value_lacks foreign_newline (fun t ht => ?_) ?_
  · exact fun hi => h t ht (hi.subset List.mem_cons_self)
  · obtain ⟨u, v, huv⟩ := List.append_of_mem hmem
    exact ⟨u, v, by rw [huv]; simp⟩

end Button

/-! ### Nothing to trim -/

/-- A sheet ends with the brace that closes its last animation. -/
theorem Css.exists_sheet_eq_append (rules : List Rule) :
    ∃ vs, (sheet rules).toList = vs ++ ['\x7d'] := by
  have hbrace : "\x7d".toList = ['\x7d'] := by decide
  unfold sheet animations
  rw [String.toList_append, String.toList_append, hbrace, ← List.append_assoc]
  exact ⟨_, rfl⟩

namespace Button

/-- A stylesheet begins with its selector. -/
theorem exists_sheet_rules_eq_cons {base : String} {c : Char} {us : List Char}
    (h : base.toList = c :: us) (b : Button) : ∃ vs, (sheet (b.rules base)).toList = c :: vs := by
  have hcss : ∃ vs, (b.restRule base).css.toList = c :: vs := by
    simp only [Rule.css, Rule.commentCss, restRule, String.intercalate_singleton,
      String.toList_append, h]
    exact ⟨_, rfl⟩
  obtain ⟨vs, hvs⟩ := hcss
  rw [sheet, rules, List.map_cons, String.toList_append, String.toList_join, List.flatMap_cons,
    String.toList_append, hvs, List.cons_append, List.cons_append, List.cons_append]
  exact ⟨_, rfl⟩

/-- **There is nothing to trim at the ends of a stylesheet.** -/
theorem stylesheetFor_eq_sheet {base : String} {c : Char} {us : List Char}
    (h : base.toList = c :: us) (hc : Text.isBlank c = false) (b : Button) :
    b.stylesheetFor base = sheet (b.rules base) := by
  obtain ⟨vs, hhead⟩ := exists_sheet_rules_eq_cons h b
  obtain ⟨ws, hlast⟩ := exists_sheet_eq_append (b.rules base)
  have hbrace : Text.isBlank '\x7d' = false := by decide
  rw [stylesheetFor, Text.trim, Text.trimChars_eq_self (by simpa [hhead] using hc)
    (by simpa [hlast] using hbrace), String.ofList_toList]

theorem stylesheet_eq_sheet (b : Button) : b.stylesheet = sheet (b.rules buttonSelector) := by
  have hbase : buttonSelector.toList = '.' :: "btn".toList := by decide
  exact stylesheetFor_eq_sheet hbase (by decide) b

/-! ### Reading a stylesheet -/

/-- The rule for a button in a state other than at rest. -/
structure IsStateRule (b : Button) (s : State) (r : Rule) : Prop where
  comment : r.comment = some ("State: " ++ s.title)
  selectors : r.selectors = s.selectors buttonSelector
  declares : r.Declares (b.stateValue? s)

theorem isStateRule_stateRule (b : Button) (s : State) :
    b.IsStateRule s (b.stateRule buttonSelector s) :=
  ⟨rfl, rfl, b.stateRule_declares buttonSelector s⟩

/-- **A stylesheet is read as its seven rules and the animations.** -/
theorem readSheet_stylesheet (b : Button) (h : ∀ t ∈ b.texts, '\n' ∉ t.toList) :
    ∃ rest icon hover active focus disabled loading : Rule,
      readSheet b.stylesheet =
        ([rest, icon, hover, active, focus, disabled, loading], animations) ∧
      b.stylesheet = sheet [rest, icon, hover, active, focus, disabled, loading] ∧
      (rest.comment = none ∧ rest.selectors = [".btn"] ∧ rest.Declares b.restValue?) ∧
      (icon.comment = none ∧ icon.selectors = [".btn svg"] ∧ icon.Declares b.icon.value?) ∧
      b.IsStateRule .hover hover ∧ b.IsStateRule .active active ∧ b.IsStateRule .focus focus ∧
      b.IsStateRule .disabled disabled ∧ b.IsStateRule .loading loading := by
  have hread := readSheet_sheet (b.isLegible_of_mem_rules h)
  rw [← b.stylesheet_eq_sheet] at hread
  have hicon : buttonSelector ++ " svg" = ".btn svg" := by decide
  exact ⟨_, _, _, _, _, _, _, hread, b.stylesheet_eq_sheet,
    ⟨rfl, rfl, b.restRule_declares buttonSelector⟩,
    ⟨rfl, congrArg ([·]) hicon, b.iconRule_declares buttonSelector⟩,
    b.isStateRule_stateRule .hover, b.isStateRule_stateRule .active,
    b.isStateRule_stateRule .focus, b.isStateRule_stateRule .disabled,
    b.isStateRule_stateRule .loading⟩

/-- The standard button with a font whose name looks like the end of a rule. -/
def withOddFont : Button :=
  { standard with typography := { standard.typography with fontFamily := "A; \x7d B: \x7b" } }

theorem readSheet_stylesheet_withOddFont :
    (∀ t ∈ withOddFont.texts, '\n' ∉ t.toList) ∧
    ∃ rest more, readSheet withOddFont.stylesheet = (rest :: more, animations) ∧
      rest.value? "font-family" = some "A; \x7d B: \x7b" ∧ rest.value? "min-width" = none := by
  have h : ∀ t ∈ withOddFont.texts, '\n' ∉ t.toList := by decide +kernel
  refine ⟨h, ?_⟩
  obtain ⟨rest, _, _, _, _, _, _, hread, -, ⟨-, -, hrest⟩, -⟩ := readSheet_stylesheet withOddFont h
  exact ⟨rest, _, hread, hrest.value? "font-family", hrest.value? "min-width"⟩

end Button

end ButtonStyle

import Mathlib.Data.List.Nodup
import ButtonStyle.Button.Edit
import ButtonStyle.ClassList
import ButtonStyle.Proofs.Css.Stylesheet
import ButtonStyle.TokenDocument

/-!
# States are kept apart

Each state of a button has places of its own in what is made of the button: a rule in the
stylesheet, a run of classes in the class list, a member in the token document.  Some states lack
one of them.  Main statement: **changing the look of a state changes nothing outside its own places**
(`modifyLook_changes_own_places`).
-/

namespace ButtonStyle

open Css

/-! ### The places of a state -/

/-- The states that classes are made for. -/
def State.classed : List State := Variant.all.map Variant.state

/-- Where a token document holds the look of a state, if it does. -/
def State.tokenPath? : State → Option (List String)
  | default => some ["base"]
  | hover => some ["variants", "hover"]
  | active => some ["variants", "active"]
  | focus => some ["variants", "focus"]
  | disabled => some ["variants", "disabled"]
  | loading => none

namespace Button

/-- The rule for a state, be it at rest or not. -/
def ruleOf (base : String) (b : Button) (s : State) : Rule :=
  if s = .default then b.restRule base else b.stateRule base s

/-- The classes for a state; there are none for focus and loading. -/
def stateClasses (b : Button) (s : State) : List String :=
  (Variant.all.filter fun v => v.state = s).flatMap fun v => v.classes (b.look s)

/-- The classes before those for states. -/
def boxClasses (b : Button) : List String :=
  b.layout.classes ++ b.typography.classes ++ b.effects.classes ++ b.motion.classes

/-- The classes after those for states. -/
def iconClasses (b : Button) : List String :=
  if b.icon.enabled then ["[&_svg]:stroke-current"] else []

theorem ruleOf_of_ne (base : String) (b : Button) {s : State} (h : s ≠ .default) :
    b.ruleOf base s = b.stateRule base s := if_neg h

theorem classes_eq (b : Button) :
    b.classes = b.boxClasses ++ State.classed.flatMap b.stateClasses ++ b.iconClasses := by
  simp [classes, boxClasses, iconClasses, stateClasses, State.classed, Variant.all]

end Button

/-- Two documents agree but for what stands at a path of keys. -/
inductive Json.AgreeOutside : List String → Json → Json → Prop
  | here (d e : Json) : AgreeOutside [] d e
  | member {path : List String} {d e : Json} (before : List (String × Json)) (key : String)
      (after : List (String × Json)) (h : AgreeOutside path d e) :
      AgreeOutside (key :: path) (.object (before ++ (key, d) :: after))
        (.object (before ++ (key, e) :: after))

/-! ### Lists with one entry for each state -/

section Lists

variable {α β : Type} {f g : α → β} {a : α} {as : List α}

theorem map_eq_map_of_notMem (ha : a ∉ as) (h : ∀ c, c ≠ a → g c = f c) : as.map g = as.map f :=
  List.map_congr_left fun c hc => h c (ne_of_mem_of_not_mem hc ha)

/-- What differs for one entry only makes a difference in one place only. -/
theorem exists_map_eq_append (ha : a ∈ as) (hnodup : as.Nodup) (h : ∀ c, c ≠ a → g c = f c) :
    ∃ before after, as.map f = before ++ f a :: after ∧ as.map g = before ++ g a :: after := by
  obtain ⟨cs, ds, rfl⟩ := List.append_of_mem ha
  have hnotMem : a ∉ cs ∧ a ∉ ds := by
    simp only [List.nodup_middle, List.nodup_cons, List.mem_append, not_or] at hnodup
    exact hnodup.1
  refine ⟨cs.map f, ds.map f, by simp, ?_⟩
  rw [List.map_append, List.map_cons, map_eq_map_of_notMem hnotMem.1 h,
    map_eq_map_of_notMem hnotMem.2 h]

end Lists

theorem Css.sheet_append_cons (earlier : List Rule) (r : Rule) (later : List Rule) :
    sheet (earlier ++ r :: later) = String.join (earlier.map fun r => r.css ++ "\n\n") ++ r.css ++
      ("\n\n" ++ sheet later) := by
  apply String.toList_injective
  simp [sheet, String.toList_join]

/-! ### What a change of a look leaves alone -/

namespace Button

section ModifyLook

variable {s t : State} (f : Look → Look) (b : Button)

@[simp] theorem transform_modifyLook : (b.modifyLook s f).transform = b.transform := rfl

@[simp] theorem boxClasses_modifyLook : (b.modifyLook s f).boxClasses = b.boxClasses := rfl

@[simp] theorem iconClasses_modifyLook : (b.modifyLook s f).iconClasses = b.iconClasses := rfl

theorem stateRule_modifyLook_of_ne (base : String) (h : t ≠ s) :
    (b.modifyLook s f).stateRule base t = b.stateRule base t := by
  simp only [stateRule, transformCss, transform_modifyLook, look_modifyLook_of_ne f b h]

theorem restRule_modifyLook_of_ne (base : String) (h : .default ≠ s) :
    (b.modifyLook s f).restRule base = b.restRule base := by
  simp only [restRule, transformCss, look_modifyLook_of_ne f b h]
  rfl

theorem stateClasses_modifyLook_of_ne (h : t ≠ s) :
    (b.modifyLook s f).stateClasses t = b.stateClasses t := by
  simp only [stateClasses, look_modifyLook_of_ne f b h]

/-! ### The stylesheet -/

/-- The rules of the other states, and their places, stay as they are. -/
theorem exists_rules_eq_append (base : String) (s : State) : ∃ earlier later,
    b.rules base = earlier ++ b.ruleOf base s :: later ∧
    (b.modifyLook s f).rules base = earlier ++ (b.modifyLook s f).ruleOf base s :: later := by
  by_cases hs : s = .default
  · subst hs
    have hstates : State.styled.map ((b.modifyLook .default f).stateRule base) =
        State.styled.map (b.stateRule base) :=
      map_eq_map_of_notMem (by decide) fun t ht => b.stateRule_modifyLook_of_ne f base ht
    refine ⟨[], b.icon.rule base :: State.styled.map (b.stateRule base), rfl, ?_⟩
    rw [rules, hstates]
    rfl
  · have hmem : s ∈ State.styled := by cases s <;> first | exact absurd rfl hs | decide
    obtain ⟨before, after, hold, hnew⟩ := exists_map_eq_append hmem (by decide) fun t ht =>
      b.stateRule_modifyLook_of_ne f base ht
    refine ⟨b.restRule base :: b.icon.rule base :: before, after, ?_, ?_⟩
    · rw [rules, hold, ruleOf_of_ne base b hs]
      rfl
    · rw [rules, hnew, ruleOf_of_ne base _ hs,
        b.restRule_modifyLook_of_ne f base (Ne.symm hs)]
      rfl

/-! ### The class list -/

/-- The classes of the other states, and their places, stay as they are. -/
theorem exists_classes_eq_append (s : State) : ∃ before after,
    b.classes = before ++ b.stateClasses s ++ after ∧
    (b.modifyLook s f).classes = before ++ (b.modifyLook s f).stateClasses s ++ after := by
  have hother : ∀ t, t ≠ s → (b.modifyLook s f).stateClasses t = b.stateClasses t :=
    fun t ht => b.stateClasses_modifyLook_of_ne f ht
  simp only [classes_eq, List.flatMap_def, boxClasses_modifyLook, iconClasses_modifyLook]
  by_cases hs : s ∈ State.classed
  · obtain ⟨before, after, hold, hnew⟩ := exists_map_eq_append hs (by decide) hother
    refine ⟨b.boxClasses ++ before.flatten, after.flatten ++ b.iconClasses, ?_, ?_⟩
    · simp [hold]
    · simp [hnew]
  · have hnone (c : Button) : c.stateClasses s = [] := by
      cases s <;> first | rfl | exact absurd (by decide) hs
    refine ⟨b.boxClasses ++ (State.classed.map b.stateClasses).flatten, b.iconClasses, ?_, ?_⟩
    · simp [hnone]
    · simp [hnone, map_eq_map_of_notMem hs hother]

/-! ### The token document -/

/-- The members for the states that are not at rest. -/
def tokenMembers (b : Button) : List (String × Json) :=
  State.tokenVariants.map fun t => (Named.name t, token Look.shape (b.look t))

theorem tokenMembers_modifyLook_of_notMem (hs : s ∉ State.tokenVariants) :
    (b.modifyLook s f).tokenMembers = b.tokenMembers :=
  map_eq_map_of_notMem hs fun t ht => by rw [look_modifyLook_of_ne f b ht]

theorem agreeOutside_variants (hs : s ∈ State.tokenVariants) :
    b.tokenDocument.AgreeOutside ["variants", Named.name s]
      (b.modifyLook s f).tokenDocument := by
  have hdefault : .default ≠ s := by
    rintro rfl
    exact absurd hs (by decide)
  obtain ⟨before, after, hold, hnew⟩ : ∃ before after,
      b.tokenMembers = before ++ (Named.name s, token Look.shape (b.look s)) :: after ∧
      (b.modifyLook s f).tokenMembers =
        before ++ (Named.name s, token Look.shape ((b.modifyLook s f).look s)) :: after :=
    exists_map_eq_append hs (by decide) fun t ht => by rw [look_modifyLook_of_ne f b ht]
  rw [tokenMembers] at hold hnew
  simp only [tokenDocument, look_modifyLook_of_ne f b hdefault, hold, hnew]
  exact .member [_, _, _, _, _] "variants" [] (.member before _ after (.here _ _))

theorem agreeOutside_base :
    b.tokenDocument.AgreeOutside ["base"] (b.modifyLook .default f).tokenDocument := by
  have hmembers := b.tokenMembers_modifyLook_of_notMem f (s := .default) (by decide)
  rw [tokenMembers, tokenMembers] at hmembers
  simp only [tokenDocument, hmembers]
  exact .member [] "base" [_, _, _, _, _] (.here _ _)

theorem tokenDocument_modifyLook_loading :
    (b.modifyLook .loading f).tokenDocument = b.tokenDocument := by
  have hmembers := b.tokenMembers_modifyLook_of_notMem f (s := .loading) (by decide)
  have hrest : (b.modifyLook .loading f).look .default = b.look .default :=
    look_modifyLook_of_ne f b (by decide)
  rw [tokenMembers, tokenMembers] at hmembers
  simp only [tokenDocument, hmembers, hrest]
  rfl

end ModifyLook

/-- **Changing the look of a state changes nothing outside its own places.** -/
theorem modifyLook_changes_own_places (s : State) (f : Look → Look) (b : Button) :
    (∃ before after, b.stylesheet = before ++ (b.ruleOf buttonSelector s).css ++ after ∧
      (b.modifyLook s f).stylesheet =
        before ++ ((b.modifyLook s f).ruleOf buttonSelector s).css ++ after) ∧
    (∃ before after, b.classes = before ++ b.stateClasses s ++ after ∧
      (b.modifyLook s f).classes = before ++ (b.modifyLook s f).stateClasses s ++ after) ∧
    (s = .focus ∨ s = .loading → (b.modifyLook s f).classList = b.classList) ∧
    (match s.tokenPath? with
      | none => (b.modifyLook s f).tokens = b.tokens
      | some path => ∃ d e : Json, b.tokens = d.toPretty ∧ (b.modifyLook s f).tokens = e.toPretty ∧
          d.AgreeOutside path e) := by
  refine ⟨?_, b.exists_classes_eq_append f s, fun hs => ?_, ?_⟩
  · obtain ⟨earlier, later, hold, hnew⟩ := b.exists_rules_eq_append f buttonSelector s
    rw [stylesheet_eq_sheet, stylesheet_eq_sheet, hold, hnew]
    exact ⟨_, _, sheet_append_cons earlier _ later, sheet_append_cons earlier _ later⟩
  · obtain ⟨before, after, hold, hnew⟩ := b.exists_classes_eq_append f s
    have hnone (c : Button) : c.stateClasses s = [] := by rcases hs with rfl | rfl <;> rfl
    rw [classList, classList, hold, hnew, hnone, hnone]
  · cases s with
    | default => exact ⟨_, _, rfl, rfl, b.agreeOutside_base f⟩
    | hover => exact ⟨_, _, rfl, rfl, b.agreeOutside_variants f (s := .hover) (by decide)⟩
    | active => exact ⟨_, _, rfl, rfl, b.agreeOutside_variants f (s := .active) (by decide)⟩
    | focus => exact ⟨_, _, rfl, rfl, b.agreeOutside_variants f (s := .focus) (by decide)⟩
    | disabled => exact ⟨_, _, rfl, rfl, b.agreeOutside_variants f (s := .disabled) (by decide)⟩
    | loading => exact congrArg Json.toPretty (b.tokenDocument_modifyLook_loading f)

end Button

end ButtonStyle

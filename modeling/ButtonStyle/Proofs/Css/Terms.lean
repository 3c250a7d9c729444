import Mathlib.Data.List.Nodup
import Mathlib.Tactic.MkIffOfInductiveProp
import ButtonStyle.Button.Standard
import ButtonStyle.Proofs.Button.Value
import ButtonStyle.Proofs.ClassList.Reading

/-!
# Terms of transforms and filters

The values of `transform` and `filter` are lists of terms, each a function of one quantity, and a
term that would change nothing is left out.  Which terms there can be is a table of functions
(`transformFunctions`, `filterFunctions`), and what is written is given by an argument for each
function, or none (`written`).  The text tells the arguments but for the signs of zeros
(`joined_written_inj`), since each term begins with its function and the text of a quantity tells
what it is.

Main statement: **the terms in `transform` and `filter` are those that differ from the identity, and
of numbers two values have the same text just where all components are equal by value**
(`terms_tell_components`).
-/

namespace ButtonStyle

open Css Text ClassName

/-! ### Functions and their arguments -/

namespace Css

/-- The argument of a function, unless its term is left out. -/
def argument (omitted : Bool) (x : Quantity) : Option Quantity := if omitted then none else some x

/-- The terms for those functions that have an argument, each function having its unit. -/
def written : List (String × String) → List (Option Quantity) → List String
  | (function, unit) :: functions, x :: xs =>
    (x.map fun x => call function (x.css ++ unit)).toList ++ written functions xs
  | _, _ => []

/-- Arguments without the signs of zeros. -/
def plainArguments (xs : List (Option Quantity)) : List (Option Quantity) :=
  xs.map (Option.map Quantity.plain)

/-- Whether terms of the functions can be told apart: a function is one word, without a parenthesis,
and is named once. -/
structure AreDistinct (functions : List (String × String)) : Prop where
  once : (functions.map Prod.fst).Nodup
  legible : ∀ f ∈ functions, '(' ∉ f.1.toList ∧ IsUnbroken f.1 ∧ IsUnbroken f.2

section Written

variable {functions : List (String × String)} {xs ys : List (Option Quantity)}

@[simp] theorem written_nil : written [] xs = [] := by
  cases xs <;> rfl

@[simp] theorem written_cons_none {f : String × String} :
    written (f :: functions) (none :: xs) = written functions xs := rfl

@[simp] theorem written_cons_some {f : String × String} {x : Quantity} :
    written (f :: functions) (some x :: xs) =
      call f.1 (x.css ++ f.2) :: written functions xs := rfl

theorem written_cons_argument {f : String × String} {omitted : Bool} {x : Quantity} :
    written (f :: functions) (argument omitted x :: xs) =
      unlessIdentity omitted (call f.1 (x.css ++ f.2)) ++ written functions xs := by
  cases omitted <;> rfl

/-- The terms are those of the functions that have an argument. -/
theorem mem_written_iff {c : String} : c ∈ written functions xs ↔
    ∃ f x, (f, some x) ∈ functions.zip xs ∧ c = call f.1 (x.css ++ f.2) := by
  induction functions generalizing xs with
  | nil => simp
  | cons f functions ih =>
    obtain ⟨function, unit⟩ := f
    cases xs with
    | nil => simp [written]
    | cons x xs => cases x <;> simp [ih, or_and_right, exists_or]

/-- The function of a call ends where the parenthesis stands. -/
theorem takeWhile_call {f : String} (hf : '(' ∉ f.toList) (a : String) :
    (call f a).toList.takeWhile (· ≠ '(') = f.toList := by
  have hletters : ∀ c ∈ f.toList, decide (c ≠ '(') = true := by
    intro c hc
    exact decide_eq_true fun hopen => hf (hopen ▸ hc)
  have hopen : "(".toList = ['('] := by decide
  rw [call, String.toList_append, String.toList_append, String.toList_append, List.append_assoc,
    List.append_assoc, List.takeWhile_append_of_pos hletters, hopen]
  simp

/-- A call tells its function and its argument. -/
theorem call_inj {f g a b : String} (hf : '(' ∉ f.toList) (hg : '(' ∉ g.toList)
    (h : call f a = call g b) : f = g ∧ a = b := by
  have hfunction := takeWhile_call hf a
  rw [h, takeWhile_call hg] at hfunction
  obtain rfl : g = f := String.toList_injective hfunction
  refine ⟨rfl, ?_⟩
  simpa [call] using h

/-- **Terms tell the arguments of their functions**, but for the signs of zeros. -/
theorem written_inj (h : AreDistinct functions) (hxs : xs.length = functions.length)
    (hys : ys.length = functions.length) :
    written functions xs = written functions ys ↔ plainArguments xs = plainArguments ys := by
  induction functions generalizing xs ys with
  | nil =>
    rw [List.length_eq_zero_iff.1 hxs, List.length_eq_zero_iff.1 hys]
    simp
  | cons f functions ih =>
    obtain ⟨x, xs, rfl⟩ := List.exists_cons_of_length_eq_add_one hxs
    obtain ⟨y, ys, rfl⟩ := List.exists_cons_of_length_eq_add_one hys
    obtain ⟨hnew, hrest⟩ := List.nodup_cons.1 h.once
    obtain ⟨hword, hwords⟩ := List.forall_mem_cons.1 h.legible
    have ih := ih ⟨hrest, hwords⟩ (Nat.succ.inj hxs) (Nat.succ.inj hys)
    unfold plainArguments at ih ⊢
    -- a term of this function is not among the terms of the functions after it
    have hnot (x : Quantity) (zs : List (Option Quantity)) :
        call f.1 (x.css ++ f.2) ∉ written functions zs := by
      intro hmem
      obtain ⟨g, y, hzip, hcall⟩ := mem_written_iff.1 hmem
      have hg := (List.of_mem_zip hzip).1
      have hname := (call_inj hword.1 (hwords g hg).1 hcall).1
      exact hnew (hname ▸ List.mem_map_of_mem hg)
    cases x with
    | none =>
      cases y with
      | none => simpa using ih
      | some y =>
        have hne : written functions xs ≠ call f.1 (y.css ++ f.2) :: written functions ys :=
          fun heq => hnot y xs (heq ▸ List.mem_cons_self)
        simpa using hne
    | some x =>
      cases y with
      | none =>
        have hne : call f.1 (x.css ++ f.2) :: written functions xs ≠ written functions ys :=
          fun heq => hnot x ys (heq ▸ List.mem_cons_self)
        simpa using hne
      | some y =>
        have hcall : call f.1 (x.css ++ f.2) = call f.1 (y.css ++ f.2) ↔ x.plain = y.plain := by
          rw [← Quantity.css_append_eq_iff]
          exact ⟨fun heq => (call_inj hword.1 hword.1 heq).2, congrArg (call f.1)⟩
        simp [hcall, ih]

/-! ### The text of terms -/

theorem isUnbroken_call {f a : String} (hf : IsUnbroken f) (ha : IsUnbroken a) :
    IsUnbroken (call f a) := by
  simp only [call, isUnbroken_append]
  exact ⟨⟨⟨hf, by decide⟩, ha⟩, by decide⟩

/-- Terms are words other than `none`. -/
theorem isTerm_of_mem_written (h : AreDistinct functions) {c : String}
    (hc : c ∈ written functions xs) : '(' ∈ c.toList ∧ IsUnbroken c := by
  obtain ⟨f, x, hzip, rfl⟩ := mem_written_iff.1 hc
  obtain ⟨-, hname, hunit⟩ := h.legible f (List.of_mem_zip hzip).1
  exact ⟨by simp [call],
    isUnbroken_call hname (isUnbroken_append.2 ⟨isUnbroken_css x, hunit⟩)⟩

theorem words_joined_written (h : AreDistinct functions) :
    words (joined " " (written functions xs)) =
      if written functions xs = [] then [absent] else written functions xs := by
  split
  · next hnil =>
    rw [hnil]
    decide
  · next hne =>
    rw [joined_of_ne_nil _ hne]
    refine words_intercalate fun c hc => ?_
    obtain ⟨hopen, hunbroken⟩ := isTerm_of_mem_written h hc
    exact ⟨fun hempty => by simp [hempty] at hopen, hunbroken⟩

/-- **The text of terms tells the arguments of their functions**, but for the signs of zeros. -/
theorem joined_written_inj (h : AreDistinct functions) (hxs : xs.length = functions.length)
    (hys : ys.length = functions.length) :
    joined " " (written functions xs) = joined " " (written functions ys) ↔
      plainArguments xs = plainArguments ys := by
  rw [← written_inj h hxs hys]
  refine ⟨fun heq => ?_, congrArg _⟩
  have hnone (zs : List (Option Quantity)) : written functions zs ≠ [absent] := by
    intro hzs
    have hmem : absent ∈ written functions zs := hzs ▸ List.mem_cons_self
    exact absurd (isTerm_of_mem_written h hmem).1 (by decide)
  have hwords := congrArg words heq
  rw [words_joined_written h, words_joined_written h] at hwords
  split at hwords <;> split at hwords
  · next hx hy => rw [hx, hy]
  · exact absurd hwords.symm (hnone ys)
  · exact absurd hwords (hnone xs)
  · exact hwords

/-- The text has a term of a function just if it is not left out, and with just one argument. -/
def HasTerm (text function : String) (omitted : Bool) (argument : String) : Prop :=
  ∀ a, call function a ∈ words text ↔ omitted = false ∧ a = argument

theorem hasTerm_of_mem_zip (h : AreDistinct functions) (hxs : xs.length = functions.length)
    {f : String × String} {omitted : Bool} {x : Quantity}
    (hx : (f, argument omitted x) ∈ functions.zip xs) :
    HasTerm (joined " " (written functions xs)) f.1 omitted (x.css ++ f.2) := by
  have honce : ((functions.zip xs).map fun p => p.1.1).Nodup := by
    have hmap : (functions.zip xs).map Prod.fst = functions := List.map_fst_zip hxs.ge
    have hnames := h.once
    rwa [← hmap, List.map_map] at hnames
  intro a
  have hcall : call f.1 a ∈ words (joined " " (written functions xs)) ↔
      call f.1 a ∈ written functions xs := by
    rw [words_joined_written h]
    split
    · next hnil => simp [hnil, call_ne_absent]
    · rfl
  rw [hcall, mem_written_iff]
  constructor
  · rintro ⟨g, y, hzip, heq⟩
    obtain ⟨hname, rfl⟩ := call_inj (h.legible f (List.of_mem_zip hx).1).1
      (h.legible g (List.of_mem_zip hzip).1).1 heq
    have hsame := List.inj_on_of_nodup_map honce hx hzip hname
    obtain ⟨rfl, hy⟩ := Prod.mk.inj hsame
    cases omitted with
    | false => exact ⟨rfl, by rw [Option.some.inj hy]⟩
    | true => cases hy
  · rintro ⟨rfl, rfl⟩
    exact ⟨f, x, hx, rfl⟩

end Written

/-- Two parts in one count as two. -/
theorem joined_cons_append (separator part next : String) (parts : List String) :
    joined separator ((part ++ separator ++ next) :: parts) =
      joined separator (part :: next :: parts) := by
  rw [joined_of_ne_nil _ (List.cons_ne_nil _ _), joined_of_ne_nil _ (List.cons_ne_nil _ _)]
  cases parts with
  | nil => simp [String.intercalate_cons_cons]
  | cons => simp [String.intercalate_cons_cons, String.append_assoc]

end Css

/-! ### Arguments that are left out -/

/-- The quantity with zero in place of values below it. -/
def Quantity.clamped (x : Quantity) : Quantity := if x < 0 then 0 else x

theorem Quantity.clamped_finite (x : Number) :
    (finite x).clamped = finite (if x < 0 then 0 else x) := by
  have hbelow : finite x < 0 ↔ x < 0 := finite_lt_finite
  rw [clamped, apply_ite finite]
  simp only [hbelow]
  rfl

namespace Css

theorem plain_argument_eq_iff {omitted omitted' : Bool} {x y : Quantity} :
    (argument omitted x).map Quantity.plain = (argument omitted' y).map Quantity.plain ↔
      omitted = omitted' ∧ (omitted = false → x.plain = y.plain) := by
  cases omitted <;> cases omitted' <;> simp [argument]

/-- To leave out one value keeps the other values apart. -/
theorem plain_argument_iff {x y identity : Quantity} (h : identity.isDefined = true) :
    (argument (x == identity) x).map Quantity.plain =
        (argument (y == identity) y).map Quantity.plain ↔ x.plain = y.plain := by
  have homitted (z : Quantity) : (z == identity) = true ↔ z.plain = identity.plain := by
    rw [Quantity.beq_iff, and_iff_left_iff_imp]
    intro hz
    rw [← Quantity.isDefined_plain, hz, Quantity.isDefined_plain, h]
  rw [plain_argument_eq_iff]
  constructor
  · rintro ⟨hsame, hrest⟩
    cases hx : x == identity with
    | false => exact hrest hx
    | true =>
      rw [hx] at hsame
      exact ((homitted x).1 hx).trans ((homitted y).1 hsame.symm).symm
  · intro hplain
    refine ⟨?_, fun _ => hplain⟩
    rw [Bool.eq_iff_iff, homitted, homitted, hplain]

/-- To leave out what is not positive keeps the positive values apart. -/
theorem plain_argument_positive_iff {x y : Quantity} (hx : x.isFinite = true)
    (hy : y.isFinite = true) :
    (argument (!decide (0 < x)) x).map Quantity.plain =
        (argument (!decide (0 < y)) y).map Quantity.plain ↔ (x.clamped == y.clamped) = true := by
  obtain ⟨x, rfl⟩ := Quantity.isFinite_iff.1 hx
  obtain ⟨y, rfl⟩ := Quantity.isFinite_iff.1 hy
  have hzero : (0 : Number).units = 0 := rfl
  have hclamped (z : Number) : (if z < 0 then 0 else z).units = max z.units 0 := by
    simp only [Number.lt_iff, hzero, apply_ite Number.units]
    split <;> omega
  have habove (z : Number) : (0 : Quantity) < .finite z ↔ 0 < z.units :=
    Quantity.finite_lt_finite.trans Number.lt_iff
  have hplain : (Quantity.finite x).plain = (Quantity.finite y).plain ↔ x.units = y.units := by
    rw [← Quantity.beq_iff_of_isFinite rfl, Quantity.finite_beq_finite, Number.beq_iff]
  rw [plain_argument_eq_iff, Quantity.clamped_finite, Quantity.clamped_finite,
    Quantity.finite_beq_finite, Number.beq_iff, hclamped, hclamped, hplain]
  simp only [habove, Bool.not_inj_iff, decide_eq_decide, Bool.not_eq_false', decide_eq_true_eq]
  omega

/-- The functions of `transform`, with their units. -/
def transformFunctions : List (String × String) :=
  [("perspective", "px"), ("rotateX", "deg"), ("scale", ""), ("translateX", "px"),
    ("translateY", "px"), ("rotate", "deg"), ("skewX", "deg"), ("skewY", "deg")]

/-- The functions of `filter`, with their units. -/
def filterFunctions : List (String × String) :=
  [("blur", "px"), ("brightness", "%"), ("contrast", "%"), ("grayscale", "%")]

theorem areDistinct_transformFunctions : AreDistinct transformFunctions := ⟨by decide, by decide⟩

theorem areDistinct_filterFunctions : AreDistinct filterFunctions := ⟨by decide, by decide⟩

end Css

/-! ### Transforms -/

/-- The arguments of the functions that turn the whole button. -/
def Tilt.arguments (t : Tilt) : List (Option Quantity) :=
  [argument (!t.enabled) t.perspective, argument (!t.enabled) t.tilt]

/-- The arguments of the functions for the look of a state. -/
def Transform.arguments (t : Transform) : List (Option Quantity) :=
  [argument (t.scale == 1) t.scale, argument (t.translateX == 0) t.translateX,
    argument (t.translateY == 0) t.translateY, argument (t.rotate == 0) t.rotate,
    argument (t.skewX == 0) t.skewX, argument (t.skewY == 0) t.skewY]

theorem Button.transformCss_eq (b : Button) (s : State) : b.transformCss s =
    joined " " (written transformFunctions
      (b.transform.arguments ++ (b.look s).transform.arguments)) := by
  have hterms : (b.look s).transform.terms =
      written (transformFunctions.drop 2) (b.look s).transform.arguments := by
    simp [Transform.terms, Transform.arguments, transformFunctions, written_cons_argument, px, deg]
  rw [transformCss, hterms]
  unfold Tilt.terms Tilt.arguments
  cases b.transform.enabled with
  | false => rfl
  | true => exact joined_cons_append " " _ _ _

/-- The button is turned alike: not at all, or by values that are equal. -/
def Tilt.IsAlike (t u : Tilt) : Prop :=
  t.enabled = false ∧ u.enabled = false ∨
    t.enabled = true ∧ u.enabled = true ∧ t.perspective == u.perspective ∧ t.tilt == u.tilt

/-- All components are equal by value. -/
@[mk_iff]
structure Transform.IsAlike (t u : Transform) : Prop where
  scale : t.scale == u.scale
  translateX : t.translateX == u.translateX
  translateY : t.translateY == u.translateY
  rotate : t.rotate == u.rotate
  skewX : t.skewX == u.skewX
  skewY : t.skewY == u.skewY

theorem Tilt.plainArguments_iff {t u : Tilt} (ht : Tilt.shape.all Quantity.isFinite t = true) :
    plainArguments t.arguments = plainArguments u.arguments ↔ t.IsAlike u := by
  obtain ⟨hperspective, htilt⟩ : t.perspective.isFinite = true ∧ t.tilt.isFinite = true := by
    simpa [Tilt.shape, Shape.all, Fields.all] using ht
  unfold arguments IsAlike plainArguments
  rw [Quantity.beq_iff_of_isFinite hperspective, Quantity.beq_iff_of_isFinite htilt]
  cases t.enabled <;> cases u.enabled <;> simp [argument]

theorem Transform.plainArguments_iff {t u : Transform}
    (ht : Transform.shape.all Quantity.isFinite t = true) :
    plainArguments t.arguments = plainArguments u.arguments ↔ t.IsAlike u := by
  have hone : (1 : Quantity).isDefined = true := rfl
  have hzero : (0 : Quantity).isDefined = true := rfl
  simp only [Transform.shape, Shape.all, Fields.all, Bool.and_eq_true] at ht
  simp [plainArguments, arguments, isAlike_iff, plain_argument_iff, hone, hzero,
    Quantity.beq_iff_of_isFinite, ht, and_left_comm]

/-- The text has the terms of a tilt just if the button is turned. -/
structure Tilt.IsShownIn (t : Tilt) (text : String) : Prop where
  perspective : HasTerm text "perspective" (!t.enabled) (px t.perspective)
  tilt : HasTerm text "rotateX" (!t.enabled) (deg t.tilt)

/-- Of the terms of a transform the text has just those that differ from the identity. -/
structure Transform.IsShownIn (t : Transform) (text : String) : Prop where
  scale : HasTerm text "scale" (t.scale == 1) t.scale.css
  translateX : HasTerm text "translateX" (t.translateX == 0) (px t.translateX)
  translateY : HasTerm text "translateY" (t.translateY == 0) (px t.translateY)
  rotate : HasTerm text "rotate" (t.rotate == 0) (deg t.rotate)
  skewX : HasTerm text "skewX" (t.skewX == 0) (deg t.skewX)
  skewY : HasTerm text "skewY" (t.skewY == 0) (deg t.skewY)

theorem Button.transformCss_shows (b : Button) (s : State) :
    b.transform.IsShownIn (b.transformCss s) ∧
      (b.look s).transform.IsShownIn (b.transformCss s) := by
  have hterm (i : ℕ) (f : String × String) {omitted : Bool} (x : Quantity)
      (h : (transformFunctions.zip
        (b.transform.arguments ++ (b.look s).transform.arguments))[i]? =
          some (f, argument omitted x)) :
      HasTerm (b.transformCss s) f.1 omitted (x.css ++ f.2) := by
    rw [transformCss_eq]
    exact hasTerm_of_mem_zip areDistinct_transformFunctions rfl (List.mem_of_getElem? h)
  constructor
  · exact {
      perspective := hterm 0 ("perspective", "px") _ rfl
      tilt := hterm 1 ("rotateX", "deg") _ rfl }
  · exact {
      scale := by simpa using hterm 2 ("scale", "") _ rfl
      translateX := hterm 3 ("translateX", "px") _ rfl
      translateY := hterm 4 ("translateY", "px") _ rfl
      rotate := hterm 5 ("rotate", "deg") _ rfl
      skewX := hterm 6 ("skewX", "deg") _ rfl
      skewY := hterm 7 ("skewY", "deg") _ rfl }

/-! ### Filters -/

/-- The arguments of the functions of a filter. -/
def Filter.arguments (f : Filter) : List (Option Quantity) :=
  [argument (!decide (0 < f.blur)) f.blur, argument (f.brightness == 100) f.brightness,
    argument (f.contrast == 100) f.contrast, argument (!decide (0 < f.grayscale)) f.grayscale]

theorem Look.filterCss_eq (l : Look) : l.filterCss =
    joined " " (written filterFunctions (l.filter.getD .identity).arguments) := by
  have hterms (f : Filter) : f.terms = written filterFunctions f.arguments := by
    simp [Filter.terms, Filter.arguments, filterFunctions, written_cons_argument, px, percent]
  unfold filterCss
  cases l.filter with
  | none =>
    have hself {x : Quantity} (hx : x.isDefined = true) : argument (x == x) x = none := by
      rw [Quantity.beq_iff.2 ⟨rfl, hx⟩]
      rfl
    have hzero : argument (!decide ((0 : Quantity) < 0)) 0 = none := by
      have hnot : ¬ (0 : Quantity) < 0 := Quantity.finite_lt_finite.not.2 (Int.lt_irrefl _)
      rw [decide_eq_false hnot]
      rfl
    have hidentity : Filter.identity.arguments = [none, none, none, none] := by
      rw [Filter.arguments, Filter.identity, hself rfl, hzero]
    rw [Option.getD_none, hidentity]
    rfl
  | some f => exact congrArg (joined " ") (hterms f)

/-- All components are equal by value, negative blur and grayscale counting as none. -/
@[mk_iff]
structure Filter.IsAlike (f g : Filter) : Prop where
  blur : f.blur.clamped == g.blur.clamped
  brightness : f.brightness == g.brightness
  contrast : f.contrast == g.contrast
  grayscale : f.grayscale.clamped == g.grayscale.clamped

theorem Filter.plainArguments_iff {f g : Filter}
    (hf : Filter.shape.all Quantity.isFinite f = true)
    (hg : Filter.shape.all Quantity.isFinite g = true) :
    plainArguments f.arguments = plainArguments g.arguments ↔ f.IsAlike g := by
  have hfull : (100 : Quantity).isDefined = true := rfl
  simp only [Filter.shape, Shape.all, Fields.all, Bool.and_eq_true] at hf hg
  simp [plainArguments, arguments, isAlike_iff, plain_argument_iff, plain_argument_positive_iff,
    hfull, Quantity.beq_iff_of_isFinite, hf, hg]

/-- Of the terms of a filter the text has just those that differ from the identity. -/
structure Filter.IsShownIn (f : Filter) (text : String) : Prop where
  blur : HasTerm text "blur" (!decide (0 < f.blur)) (px f.blur)
  brightness : HasTerm text "brightness" (f.brightness == 100) (percent f.brightness)
  contrast : HasTerm text "contrast" (f.contrast == 100) (percent f.contrast)
  grayscale : HasTerm text "grayscale" (!decide (0 < f.grayscale)) (percent f.grayscale)

theorem Look.filterCss_shows (l : Look) : (l.filter.getD .identity).IsShownIn l.filterCss := by
  have hterm (i : ℕ) (f : String × String) {omitted : Bool} (x : Quantity)
      (h : (filterFunctions.zip (l.filter.getD .identity).arguments)[i]? =
        some (f, argument omitted x)) :
      HasTerm l.filterCss f.1 omitted (x.css ++ f.2) := by
    rw [filterCss_eq]
    exact hasTerm_of_mem_zip areDistinct_filterFunctions rfl (List.mem_of_getElem? h)
  exact {
    blur := hterm 0 ("blur", "px") _ rfl
    brightness := hterm 1 ("brightness", "%") _ rfl
    contrast := hterm 2 ("contrast", "%") _ rfl
    grayscale := hterm 3 ("grayscale", "%") _ rfl }

/-! ### What the texts tell -/

theorem plainArguments_append_inj {xs ys xs' ys' : List (Option Quantity)}
    (h : xs.length = xs'.length) : plainArguments (xs ++ ys) = plainArguments (xs' ++ ys') ↔
      plainArguments xs = plainArguments xs' ∧ plainArguments ys = plainArguments ys' := by
  have hlength : (plainArguments xs).length = (plainArguments xs').length := by
    simpa [plainArguments] using h
  have happend (xs ys : List (Option Quantity)) :
      plainArguments (xs ++ ys) = plainArguments xs ++ plainArguments ys := List.map_append
  rw [happend, happend]
  exact ⟨fun heq => List.append_inj heq hlength, fun ⟨hleft, hright⟩ => by rw [hleft, hright]⟩

/-- **The terms in `transform` and `filter` are those that differ from the identity, and of numbers
two values have the same text just where all components are equal by value.**  For transforms it is
enough that one of the two has numbers.  No filter is the filter that changes nothing. -/
theorem terms_tell_components :
    (∀ (b : Button) (s : State), b.transform.IsShownIn (b.transformCss s) ∧
      (b.look s).transform.IsShownIn (b.transformCss s)) ∧
    (∀ l : Look, (l.filter.getD .identity).IsShownIn l.filterCss) ∧
    (∀ (b c : Button) (s t : State), Button.shape.all Quantity.isFinite b = true →
      (b.transformCss s = c.transformCss t ↔
        b.transform.IsAlike c.transform ∧ (b.look s).transform.IsAlike (c.look t).transform)) ∧
    ∀ l m : Look, Look.shape.all Quantity.isFinite l = true →
      Look.shape.all Quantity.isFinite m = true → (l.filterCss = m.filterCss ↔
        (l.filter.getD .identity).IsAlike (m.filter.getD .identity)) := by
  refine ⟨Button.transformCss_shows, Look.filterCss_shows, fun b c s t hb => ?_,
    fun l m hl hm => ?_⟩
  · have hparts := Button.all_of_shape hb
    have htilts : b.transform.arguments.length = c.transform.arguments.length := rfl
    rw [b.transformCss_eq, c.transformCss_eq,
      joined_written_inj areDistinct_transformFunctions rfl rfl, plainArguments_append_inj htilts,
      Tilt.plainArguments_iff hparts.tilt,
      Transform.plainArguments_iff (Look.all_of_shape (hparts.look s)).transform]
  · have hfilter {l : Look} (hl : Look.shape.all Quantity.isFinite l = true) :
        Filter.shape.all Quantity.isFinite (l.filter.getD .identity) = true := by
      have hfilter := (Look.all_of_shape hl).filter
      cases h : l.filter with
      | none => rfl
      | some f => exact hfilter f h
    rw [l.filterCss_eq, m.filterCss_eq, joined_written_inj areDistinct_filterFunctions rfl rfl,
      Filter.plainArguments_iff (hfilter hl) (hfilter hm)]

/-- The standard button is scaled when it is pressed, and has the same filter in both looks. -/
theorem terms_tell_components_standard :
    Button.shape.all Quantity.isFinite .standard = true ∧
      Button.standard.transformCss .active ≠ Button.standard.transformCss .default ∧
      Look.standardActive.filterCss = Look.standard.filterCss := by
  have hfinite : Button.shape.all Quantity.isFinite .standard = true := by decide
  have hactive : Look.shape.all Quantity.isFinite .standardActive = true := by decide
  have hrest : Look.shape.all Quantity.isFinite .standard = true := by decide
  obtain ⟨-, -, htransform, hfilter⟩ := terms_tell_components
  refine ⟨hfinite, ?_, ?_⟩
  · rw [Ne, htransform _ _ _ _ hfinite]
    rintro ⟨-, halike⟩
    exact absurd halike.scale (by decide +kernel)
  · exact (hfilter _ _ hactive hrest).2 ⟨by decide +kernel, by decide +kernel, by decide +kernel,
      by decide +kernel⟩

end ButtonStyle

import Mathlib.Data.List.Induction
import ButtonStyle.Button.Edit

/-!
# What edits change

An edit is addressed to places: to sides, to corners, or to the look of a state (`Edit.targets`).
Main statement: **after any run of edits each place is what the edits addressed to it make of it,
and all else is as before; so edits that have no place in common commute**
(`Edit.applyAll_changes_targets`).

What one edit does at a place is a step lemma, and what a run does follows by induction on its last
edit.
-/

namespace ButtonStyle

/-! ### Places -/

/-- The length of a side. -/
def Sides.get (s : Sides) : Side → Quantity
  | .top => s.top
  | .right => s.right
  | .bottom => s.bottom
  | .left => s.left

/-- The length of a corner. -/
def Corners.get (c : Corners) : Corner → Quantity
  | .topLeft => c.topLeft
  | .topRight => c.topRight
  | .bottomRight => c.bottomRight
  | .bottomLeft => c.bottomLeft

theorem Sides.ext_get {s t : Sides} (h : ∀ side, s.get side = t.get side) : s = t := by
  obtain ⟨_, _, _, _⟩ := s
  obtain ⟨_, _, _, _⟩ := t
  exact Sides.mk.injEq .. ▸ ⟨h .top, h .right, h .bottom, h .left⟩

theorem Corners.ext_get {c d : Corners} (h : ∀ corner, c.get corner = d.get corner) : c = d := by
  obtain ⟨_, _, _, _⟩ := c
  obtain ⟨_, _, _, _⟩ := d
  exact Corners.mk.injEq .. ▸ ⟨h .topLeft, h .topRight, h .bottomRight, h .bottomLeft⟩

theorem Looks.ext_get {looks looks' : Looks} (h : ∀ s, looks.get s = looks'.get s) :
    looks = looks' := by
  obtain ⟨_, _, _, _, _, _⟩ := looks
  obtain ⟨_, _, _, _, _, _⟩ := looks'
  exact Looks.mk.injEq .. ▸
    ⟨h .default, h .hover, h .active, h .focus, h .disabled, h .loading⟩

theorem Sides.get_set (target : Option Side) (x : Quantity) (s : Sides) (side : Side) :
    (s.set target x).get side = if target = none ∨ target = some side then x else s.get side := by
  cases target with
  | none => cases side <;> rfl
  | some target => cases target <;> cases side <;> rfl

theorem Corners.get_set (target : Option Corner) (x : Quantity) (c : Corners) (corner : Corner) :
    (c.set target x).get corner =
      if target = none ∨ target = some corner then x else c.get corner := by
  cases target with
  | none => cases corner <;> rfl
  | some target => cases target <;> cases corner <;> rfl

theorem Button.look_modifyLook (s t : State) (f : Look → Look) (b : Button) :
    (b.modifyLook s f).look t = if s = t then f (b.look t) else b.look t := by
  split
  · next h => rw [← h, look_modifyLook_self]
  · next h => exact look_modifyLook_of_ne f b (Ne.symm h)

namespace Edit

/-- A part of a button that edits are addressed to. -/
inductive Place
  | side (side : Side)
  | corner (corner : Corner)
  | look (state : State)

/-- Whether an edit is addressed to a place. -/
def targets : Edit → Place → Bool
  | padding target _, .side side => target = none ∨ target = some side
  | radius target _, .corner corner => target = none ∨ target = some corner
  | addShadow state, .look s => state = s
  | removeShadow state _, .look s => state = s
  | enableShadow state _ _, .look s => state = s
  | convertFill state _, .look s => state = s
  | _, _ => false

/-- The padding that an edit gives to a side, if it does. -/
def paddingOf? (side : Side) : Edit → Option Quantity
  | padding target x => if target = none ∨ target = some side then some x else none
  | _ => none

/-- The radius that an edit gives to a corner, if it does. -/
def radiusOf? (corner : Corner) : Edit → Option Quantity
  | radius target x => if target = none ∨ target = some corner then some x else none
  | _ => none

/-- The kind of fill that an edit gives to a state, if it does. -/
def fillKindOf? (s : State) : Edit → Option FillKind
  | convertFill state kind => if state = s then some kind else none
  | _ => none

/-- What an edit makes of the look that it is addressed to. -/
def changeLook : Edit → Look → Look
  | addShadow _ => Look.addShadow
  | removeShadow _ index => Look.removeShadow index
  | enableShadow _ index enabled => Look.enableShadow index enabled
  | convertFill _ kind => Look.convertFill kind
  | padding _ _ | radius _ _ => id

/-! ### One edit -/

section Step

variable (b : Button) (e : Edit)

theorem padding_apply (side : Side) :
    (apply b e).layout.padding.get side =
      (e.paddingOf? side).getD (b.layout.padding.get side) := by
  cases e with
  | padding target x =>
    refine (Sides.get_set target x b.layout.padding side).trans ?_
    simp only [paddingOf?]
    split <;> rfl
  | radius | addShadow | removeShadow | enableShadow | convertFill => rfl

theorem radius_apply (corner : Corner) :
    (apply b e).layout.radius.get corner =
      (e.radiusOf? corner).getD (b.layout.radius.get corner) := by
  cases e with
  | radius target x =>
    refine (Corners.get_set target x b.layout.radius corner).trans ?_
    simp only [radiusOf?]
    split <;> rfl
  | padding | addShadow | removeShadow | enableShadow | convertFill => rfl

theorem look_apply (s : State) : (apply b e).look s =
    if e.targets (.look s) then e.changeLook (b.look s) else b.look s := by
  cases e with
  | padding | radius => rfl
  | addShadow | removeShadow | enableShadow | convertFill =>
    simp only [apply, Button.look_modifyLook, targets, decide_eq_true_eq, changeLook]

theorem fillKind_apply (s : State) : ((apply b e).look s).background.kind =
    (e.fillKindOf? s).getD (b.look s).background.kind := by
  rw [look_apply]
  cases e with
  | padding | radius => rfl
  | convertFill state kind =>
    simp only [targets, decide_eq_true_eq, fillKindOf?]
    split
    · exact Fill.kind_converted kind _
    · rfl
  | addShadow | removeShadow | enableShadow => split <;> rfl

/-- An edit of a look leaves all but its shadows and its background. -/
theorem changeLook_eq (l : Look) : e.changeLook l =
    { l with shadows := (e.changeLook l).shadows, background := (e.changeLook l).background } := by
  cases e <;> rfl

/-- An edit leaves all but padding, radius and looks. -/
theorem apply_eq : apply b e =
    { b with
      layout := { b.layout with
        padding := (apply b e).layout.padding
        radius := (apply b e).layout.radius }
      states := (apply b e).states } := by
  cases e <;> rfl

end Step

/-! ### Runs of edits -/

section Run

variable (b : Button) (edits : List Edit)

theorem applyAll_append_singleton (e : Edit) :
    applyAll b (edits ++ [e]) = apply (applyAll b edits) e := List.foldl_append ..

/-- Of what an edit sets, the last edit that sets it decides. -/
theorem applyAll_last {α : Type} (read : Button → α) {set? : Edit → Option α}
    (hstep : ∀ b e, read (apply b e) = (set? e).getD (read b)) :
    read (applyAll b edits) = (edits.filterMap set?).getLast?.getD (read b) := by
  induction edits using List.reverseRecOn with
  | nil => rfl
  | append_singleton edits e ih =>
    rw [applyAll_append_singleton, hstep, ih, List.filterMap_append]
    cases h : set? e <;> simp [h]

/-- The look of a state is what the edits addressed to it make of it, in their order. -/
theorem look_applyAll (s : State) : (applyAll b edits).look s =
    (edits.filter (·.targets (.look s))).foldl (fun l e => e.changeLook l) (b.look s) := by
  induction edits using List.reverseRecOn with
  | nil => rfl
  | append_singleton edits e ih =>
    rw [applyAll_append_singleton, look_apply, ih, List.filter_append, List.foldl_append]
    cases h : e.targets (.look s) <;> simp [h]

theorem look_applyAll_eq (s : State) : (applyAll b edits).look s =
    { b.look s with
      shadows := ((applyAll b edits).look s).shadows
      background := ((applyAll b edits).look s).background } := by
  induction edits using List.reverseRecOn with
  | nil => rfl
  | append_singleton edits e ih =>
    rw [applyAll_append_singleton, look_apply]
    split
    · rw [changeLook_eq, ih]
    · exact ih

theorem applyAll_eq : applyAll b edits =
    { b with
      layout := { b.layout with
        padding := (applyAll b edits).layout.padding
        radius := (applyAll b edits).layout.radius }
      states := (applyAll b edits).states } := by
  induction edits using List.reverseRecOn with
  | nil => rfl
  | append_singleton edits e ih =>
    rw [applyAll_append_singleton, apply_eq, ih]

end Run

/-- A button after edits: each place is what the edits addressed to it make of it, and all else is
as before. -/
structure Changes (b : Button) (edits : List Edit) (b' : Button) : Prop where
  /-- The last edit of the padding of a side, or of all sides, decides. -/
  padding (side : Side) : b'.layout.padding.get side =
    (edits.filterMap (paddingOf? side)).getLast?.getD (b.layout.padding.get side)
  /-- The last edit of the radius of a corner, or of all corners, decides. -/
  radius (corner : Corner) : b'.layout.radius.get corner =
    (edits.filterMap (radiusOf? corner)).getLast?.getD (b.layout.radius.get corner)
  /-- A look is changed by the edits addressed to it, in their order, and by no other. -/
  look (s : State) : b'.look s =
    (edits.filter (·.targets (.look s))).foldl (fun l e => e.changeLook l) (b.look s)
  /-- Of a look only shadows and background change. -/
  look_rest (s : State) : ∃ shadows background,
    b'.look s = { b.look s with shadows := shadows, background := background }
  /-- The last change of the kind of fill decides. -/
  fillKind (s : State) : (b'.look s).background.kind =
    (edits.filterMap (fillKindOf? s)).getLast?.getD (b.look s).background.kind
  /-- Of the button only padding, radius and looks change. -/
  rest : ∃ padding radius states,
    b' = { b with
      layout := { b.layout with padding := padding, radius := radius }, states := states }

theorem changes_applyAll (b : Button) (edits : List Edit) :
    Changes b edits (applyAll b edits) where
  padding side := applyAll_last b edits (·.layout.padding.get side) (padding_apply · · side)
  radius corner := applyAll_last b edits (·.layout.radius.get corner) (radius_apply · · corner)
  look := look_applyAll b edits
  look_rest s := ⟨_, _, look_applyAll_eq b edits s⟩
  fillKind s := applyAll_last b edits (fun b => (b.look s).background.kind) (fillKind_apply · · s)
  rest := ⟨_, _, _, applyAll_eq b edits⟩

/-! ### Edits of different places -/

/-- What is set at a place is set by the edits addressed to it. -/
theorem filterMap_filter_targets {α : Type} {set? : Edit → Option α} {place : Place}
    (h : ∀ e, e.targets place = false → set? e = none) (edits : List Edit) :
    (edits.filter (·.targets place)).filterMap set? = edits.filterMap set? := by
  induction edits with
  | nil => rfl
  | cons e edits ih =>
    rw [List.filter_cons]
    split
    · rw [List.filterMap_cons, List.filterMap_cons, ih]
    · next htargets => rw [List.filterMap_cons_none (h e (by simpa using htargets)), ih]

theorem paddingOf?_eq_none (side : Side) (e : Edit) (h : e.targets (.side side) = false) :
    e.paddingOf? side = none := by
  cases e with
  | padding target x => exact if_neg (by simpa [targets] using h)
  | radius | addShadow | removeShadow | enableShadow | convertFill => rfl

theorem radiusOf?_eq_none (corner : Corner) (e : Edit) (h : e.targets (.corner corner) = false) :
    e.radiusOf? corner = none := by
  cases e with
  | radius target x => exact if_neg (by simpa [targets] using h)
  | padding | addShadow | removeShadow | enableShadow | convertFill => rfl

/-- Only the order of the edits addressed to the same place matters. -/
theorem applyAll_congr (b : Button) {es fs : List Edit}
    (h : ∀ place, es.filter (·.targets place) = fs.filter (·.targets place)) :
    applyAll b es = applyAll b fs := by
  have hes := changes_applyAll b es
  have hfs := changes_applyAll b fs
  have hpadding : (applyAll b es).layout.padding = (applyAll b fs).layout.padding := by
    refine Sides.ext_get fun side => ?_
    have hset := filterMap_filter_targets (paddingOf?_eq_none side)
    rw [hes.padding, hfs.padding, ← hset es, h (.side side), hset fs]
  have hradius : (applyAll b es).layout.radius = (applyAll b fs).layout.radius := by
    refine Corners.ext_get fun corner => ?_
    have hset := filterMap_filter_targets (radiusOf?_eq_none corner)
    rw [hes.radius, hfs.radius, ← hset es, h (.corner corner), hset fs]
  have hstates : (applyAll b es).states = (applyAll b fs).states := by
    refine Looks.ext_get fun s => (hes.look s).trans ?_
    rw [h (.look s)]
    exact (hfs.look s).symm
  rw [applyAll_eq b es, applyAll_eq b fs, hpadding, hradius, hstates]

/-- Whether no edit of one run is addressed to a place that an edit of the other is addressed to. -/
def Apart (es fs : List Edit) : Prop :=
  ∀ place, ∀ e ∈ es, ∀ f ∈ fs, ¬ (e.targets place = true ∧ f.targets place = true)

theorem Apart.filter_append {es fs : List Edit} (h : Apart es fs) (place : Place) :
    (es ++ fs).filter (·.targets place) = (fs ++ es).filter (·.targets place) := by
  rw [List.filter_append, List.filter_append]
  by_cases hes : es.filter (·.targets place) = []
  · rw [hes, List.nil_append, List.append_nil]
  · obtain ⟨e, he⟩ := List.exists_mem_of_ne_nil _ hes
    obtain ⟨he, htargets⟩ := List.mem_filter.1 he
    have hfs : fs.filter (·.targets place) = [] :=
      List.filter_eq_nil_iff.2 fun f hf hplace => h place e he f hf ⟨htargets, hplace⟩
    rw [hfs, List.nil_append, List.append_nil]

/-- **After any run of edits each place is what the edits addressed to it make of it, and all else
is as before.**  Runs that have no place in common commute. -/
theorem applyAll_changes_targets (b : Button) (edits : List Edit) :
    Changes b edits (applyAll b edits) ∧
      ∀ others, Apart edits others →
        applyAll (applyAll b edits) others = applyAll (applyAll b others) edits := by
  refine ⟨changes_applyAll b edits, fun others h => ?_⟩
  have happend (es fs : List Edit) : applyAll (applyAll b es) fs = applyAll b (es ++ fs) :=
    List.foldl_append.symm
  rw [happend, happend]
  exact applyAll_congr b h.filter_append

/-- Two sides and two states, and an index where no shadow is. -/
theorem applyAll_changes_targets_standard :
    Apart [padding (some .left) 3, removeShadow .hover 9]
        [padding (some .top) 4, convertFill .focus .gradient] ∧
      applyAll (applyAll .standard [padding (some .left) 3, removeShadow .hover 9])
          [padding (some .top) 4, convertFill .focus .gradient] =
        applyAll (applyAll .standard [padding (some .top) 4, convertFill .focus .gradient])
          [padding (some .left) 3, removeShadow .hover 9] := by
  have hapart : Apart [padding (some .left) 3, removeShadow .hover 9]
      [padding (some .top) 4, convertFill .focus .gradient] := by
    intro place
    cases place with
    | side side => cases side <;> decide
    | corner corner => cases corner <;> decide
    | look s => cases s <;> decide
  exact ⟨hapart, (applyAll_changes_targets .standard _).2 _ hapart⟩

end Edit

end ButtonStyle

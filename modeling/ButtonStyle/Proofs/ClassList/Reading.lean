import ButtonStyle.ClassList
import ButtonStyle.Proofs.Css.Composition
import ButtonStyle.Proofs.Text.Words

/-!
# Reading class lists

A class list is cut into its classes again, whatever the values in them are (`words_classList`), and
from a class of a value both its name and the value are read (`read?_append`).
-/

namespace ButtonStyle

open Css Text

namespace ClassName

/-! ### Values in brackets -/

theorem valued_eq (name value : String) :
    valued name value = name ++ "-" ++ "[" ++ underscored value ++ "]" := by
  rw [valued, bracketed, intercalate_words]
  simp only [String.append_assoc]

/-- A value without blanks stands in brackets as it is. -/
theorem measured_eq_valued (name : String) {value : String} (h : IsUnbroken value) :
    measured name value = valued name value := by
  rw [valued_eq, underscored_eq_self h, measured]
  simp only [String.append_assoc]
  rfl

theorem isBlank_of_isMeasureChar {c : Char} (h : isMeasureChar c = true) : isBlank c = false := by
  rcases Bool.or_eq_true_iff.1 h with h | h
  · simp only [Char.isDigit, Bool.and_eq_true, decide_eq_true_eq] at h
    have hlow : 48 ≤ c.toNat := h.1
    have hhigh : c.toNat ≤ 57 := h.2
    simp only [isBlank, Bool.or_eq_false_iff, Bool.and_eq_false_iff, decide_eq_false_iff_not,
      beq_eq_false_iff_ne]
    omega
  · have hall : "-.%pxdegmsinfNa".toList.all (fun c => !isBlank c) = true := by decide
    simpa using List.all_eq_true.1 hall c (List.contains_iff_mem.1 h)

/-- There are no blanks in a quantity. -/
theorem isUnbroken_css (x : Quantity) : IsUnbroken x.css := fun c hc =>
  isBlank_of_isMeasureChar (List.all_eq_true.1 (all_isMeasureChar_css x) c hc)

section Measures

variable (name : String) (x : Quantity)

theorem isUnbroken_px : IsUnbroken (px x) :=
  isUnbroken_append.2 ⟨isUnbroken_css x, by decide⟩

theorem isUnbroken_ms : IsUnbroken (ms x) :=
  isUnbroken_append.2 ⟨isUnbroken_css x, by decide⟩

theorem isUnbroken_em : IsUnbroken (em x) :=
  isUnbroken_append.2 ⟨isUnbroken_css x, by decide⟩

@[simp] theorem measured_css : measured name x.css = valued name x.css :=
  measured_eq_valued name (isUnbroken_css x)

@[simp] theorem measured_px : measured name (px x) = valued name (px x) :=
  measured_eq_valued name (isUnbroken_px x)

@[simp] theorem measured_ms : measured name (ms x) = valued name (ms x) :=
  measured_eq_valued name (isUnbroken_ms x)

@[simp] theorem measured_em : measured name (em x) = valued name (em x) :=
  measured_eq_valued name (isUnbroken_em x)

end Measures

/-! ### Classes as words -/

/-- Whether a text can be a class of a list. -/
def IsClass (c : String) : Prop := c ≠ "" ∧ IsUnbroken c

instance : DecidablePred IsClass := fun c => inferInstanceAs (Decidable (c ≠ "" ∧ IsUnbroken c))

theorem isClass_valued {name : String} (h : IsUnbroken name) (value : String) :
    IsClass (valued name value) := by
  have hdash : IsUnbroken "-" := by decide
  have hopen : IsUnbroken "[" := by decide
  have hclose : IsUnbroken "]" := by decide
  rw [valued_eq]
  refine ⟨by simp, ?_⟩
  simp only [isUnbroken_append]
  exact ⟨⟨⟨⟨h, hdash⟩, hopen⟩, isUnbroken_underscored value⟩, hclose⟩

theorem isClass_qualified {qualifier c : String} (h : IsUnbroken qualifier) (hc : IsClass c) :
    IsClass (qualifier ++ c) :=
  ⟨by simp [hc.1], isUnbroken_append.2 ⟨h, hc.2⟩⟩

/-- Whether all texts can be classes of a list. -/
def AreClasses (cs : List String) : Prop := ∀ c ∈ cs, IsClass c

section AreClasses

variable {c : String} {as bs : List String}

@[simp] theorem areClasses_nil : AreClasses [] := nofun

@[simp] theorem areClasses_cons : AreClasses (c :: as) ↔ IsClass c ∧ AreClasses as :=
  List.forall_mem_cons

@[simp] theorem areClasses_append : AreClasses (as ++ bs) ↔ AreClasses as ∧ AreClasses bs :=
  List.forall_mem_append

@[simp] theorem areClasses_ite {p : Prop} [Decidable p] :
    AreClasses (if p then as else bs) ↔ (p → AreClasses as) ∧ (¬ p → AreClasses bs) := by
  split <;> simp_all

end AreClasses

end ClassName

open ClassName

theorem Layout.areClasses_classes (l : Layout) : AreClasses l.classes := by
  have hwidth : IsClass l.widthClass := by
    unfold widthClass
    split
    · decide
    · decide
    · rw [measured_px]
      exact isClass_valued (by decide) _
  have hstyle : IsClass ("border-" ++ Named.name l.borderStyle) := by
    cases l.borderStyle <;> decide
  simp (disch := decide) [classes, Sides.classes, Corners.classes, positive, isClass_valued, hwidth,
    hstyle]

theorem Typography.areClasses_classes (t : Typography) : AreClasses t.classes := by
  have htransform : IsClass (Named.name t.textTransform) := by
    cases t.textTransform <;> decide
  simp (disch := decide) [classes, isClass_valued, htransform]

theorem Motion.areClasses_classes (m : Motion) : AreClasses m.classes := by
  have hall : IsClass "transition-all" := by decide
  simp (disch := decide) [classes, isClass_valued, hall]

theorem Effects.areClasses_classes (e : Effects) : AreClasses e.classes := by
  simp (disch := decide) [classes, positive, isClass_valued]

theorem Variant.areClasses_classes {v : Variant} (hv : v ∈ all) (l : Look) :
    AreClasses (v.classes l) := by
  have hall : ∀ v ∈ all, IsUnbroken v.qualifier ∧ ∀ c ∈ v.fixed, IsClass c := by decide
  obtain ⟨hqualifier, hfixed⟩ := hall v hv
  have hunqualified : AreClasses (v.unqualified l) := by
    refine areClasses_append.2 ⟨?_, hfixed⟩
    simp (disch := decide) [isClass_valued]
  intro c hc
  obtain ⟨u, hu, rfl⟩ := List.mem_map.1 hc
  exact isClass_qualified hqualifier (hunqualified u hu)

theorem Button.areClasses_classes (b : Button) : AreClasses b.classes := by
  have hstates : AreClasses (Variant.all.flatMap fun v => v.classes (b.look v.state)) :=
    List.forall_mem_flatMap.2 fun v hv => Variant.areClasses_classes hv _
  have hicon : IsClass "[&_svg]:stroke-current" := by decide
  simp [classes, b.layout.areClasses_classes, b.typography.areClasses_classes,
    b.effects.areClasses_classes, b.motion.areClasses_classes, hstates, hicon]

/-- **A class list is cut into its classes, whatever the values in them are.** -/
theorem Button.words_classList (b : Button) : words b.classList = b.classes :=
  words_intercalate b.areClasses_classes

/-! ### The names and values of classes -/

namespace ClassName

/-- The name of a class and the value in its brackets, if it ends with a bracket. -/
def read? (c : String) : Option (String × String) :=
  let value := (c.toList.dropWhile (· ≠ '[')).drop 1
  if value.getLast? = some ']' then
    some (String.ofList (c.toList.takeWhile (· ≠ '[')), String.ofList value.dropLast)
  else none

/-- What stands before a class, and has no bracket, belongs to the name. -/
theorem read?_qualified {qualifier : String} (h : '[' ∉ qualifier.toList) (c : String) :
    read? (qualifier ++ c) = (read? c).map fun r => (qualifier ++ r.1, r.2) := by
  have hqualifier : ∀ c ∈ qualifier.toList, decide (c ≠ '[') = true := by
    intro c hc
    exact decide_eq_true fun hbracket => h (hbracket ▸ hc)
  rw [read?, read?, String.toList_append, List.dropWhile_append_of_pos hqualifier,
    List.takeWhile_append_of_pos hqualifier]
  split
  · simp [String.ofList_append]
  · rfl

/-- A class is read as its name and its value, whatever brackets are in the value. -/
theorem read?_append {name : String} (h : '[' ∉ name.toList) (value : String) :
    read? (name ++ "[" ++ value ++ "]") = some (name, value) := by
  have hvalue : read? ("[" ++ value ++ "]") = some ("", value) := by
    simp [read?]
  rw [String.append_assoc, String.append_assoc, read?_qualified h, ← String.append_assoc, hvalue]
  simp

example : read? "hover:bg-[url(a[1].png)]" = some ("hover:bg-", "url(a[1].png)") := by decide

theorem read?_valued {name : String} (h : '[' ∉ (name ++ "-").toList) (value : String) :
    read? (valued name value) = some (name ++ "-", underscored value) := by
  rw [valued_eq, read?_append h]

/-- The values in the classes of a name, in their order. -/
def valuesIn (name : String) (cs : List String) : List String :=
  cs.filterMap fun c => (read? c).bind fun r => if name = r.1 then some r.2 else none

/-- The classes without a value in brackets. -/
def plainIn (cs : List String) : List String := cs.filter fun c => (read? c).isNone

section ValuesIn

variable {name : String} {as bs : List String}

@[simp] theorem valuesIn_nil : valuesIn name [] = [] := rfl

@[simp] theorem valuesIn_append : valuesIn name (as ++ bs) = valuesIn name as ++ valuesIn name bs :=
  List.filterMap_append

theorem valuesIn_flatMap {α : Type} (xs : List α) (f : α → List String) :
    valuesIn name (xs.flatMap f) = xs.flatMap fun x => valuesIn name (f x) :=
  List.filterMap_flatMap

@[simp] theorem valuesIn_ite {p : Prop} [Decidable p] :
    valuesIn name (if p then as else bs) = if p then valuesIn name as else valuesIn name bs := by
  split <;> rfl

theorem valuesIn_of_plain (h : ∀ c ∈ as, read? c = none) : valuesIn name as = [] :=
  List.filterMap_eq_nil_iff.2 fun c hc => by rw [h c hc]; rfl

theorem valuesIn_cons_plain {c : String} (h : read? c = none) :
    valuesIn name (c :: as) = valuesIn name as := by
  simp [valuesIn, h]

theorem valuesIn_cons_valued {n : String} (h : '[' ∉ (n ++ "-").toList) (value : String) :
    valuesIn name (valued n value :: as) =
      (if name = n ++ "-" then [underscored value] else []) ++ valuesIn name as := by
  rw [valuesIn, List.filterMap_cons, read?_valued h]
  by_cases hname : name = n ++ "-" <;> simp [hname, valuesIn]

theorem valuesIn_cons_qualified {qualifier n : String} (hqualifier : '[' ∉ qualifier.toList)
    (h : '[' ∉ (n ++ "-").toList) (value : String) :
    valuesIn name ((qualifier ++ valued n value) :: as) =
      (if name = qualifier ++ (n ++ "-") then [underscored value] else []) ++ valuesIn name as := by
  rw [valuesIn, List.filterMap_cons, read?_qualified hqualifier, read?_valued h]
  by_cases hname : name = qualifier ++ (n ++ "-") <;> simp [hname, valuesIn]

theorem valuesIn_positive {n : String} (h : '[' ∉ (n ++ "-").toList) (x : Quantity) :
    valuesIn name (positive n x) =
      if 0 < x then (if name = n ++ "-" then [px x] else []) else [] := by
  rw [positive, valuesIn_ite, measured_px, valuesIn_cons_valued h, valuesIn_nil, List.append_nil,
    underscored_eq_self (isUnbroken_px x)]

end ValuesIn

section PlainIn

variable {as bs : List String}

@[simp] theorem plainIn_nil : plainIn [] = [] := rfl

@[simp] theorem plainIn_append : plainIn (as ++ bs) = plainIn as ++ plainIn bs :=
  List.filter_append ..

theorem plainIn_flatMap {α : Type} (xs : List α) (f : α → List String) :
    plainIn (xs.flatMap f) = xs.flatMap fun x => plainIn (f x) :=
  List.filter_flatMap

@[simp] theorem plainIn_ite {p : Prop} [Decidable p] :
    plainIn (if p then as else bs) = if p then plainIn as else plainIn bs := by
  split <;> rfl

theorem plainIn_cons_plain {c : String} (h : read? c = none) :
    plainIn (c :: as) = c :: plainIn as := by
  simp [plainIn, h]

theorem plainIn_cons_valued {n : String} (h : '[' ∉ (n ++ "-").toList) (value : String) :
    plainIn (valued n value :: as) = plainIn as := by
  simp [plainIn, read?_valued h]

theorem plainIn_positive {n : String} (h : '[' ∉ (n ++ "-").toList) (x : Quantity) :
    plainIn (positive n x) = [] := by
  simp [positive, plainIn_cons_valued h]

theorem plainIn_map {qualifier : String} (h : '[' ∉ qualifier.toList) :
    plainIn (as.map (qualifier ++ ·)) = (plainIn as).map (qualifier ++ ·) := by
  simp [plainIn, List.filter_map, Function.comp_def, read?_qualified h]

end PlainIn

end ClassName

end ButtonStyle

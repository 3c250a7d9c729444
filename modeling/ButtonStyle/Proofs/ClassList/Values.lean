import ButtonStyle.Proofs.ClassList.Reading

/-!
# The values that classes hold

The class list of a button is read by the names of its classes: `valuesOf_eq` gives the values that
stand under a name, in their order, and `plainClasses_eq` the classes that hold no value.
-/

namespace ButtonStyle

open Css Text ClassName

/-! ### What the classes hold -/

theorem ClassName.read?_borderStyle (s : BorderStyle) : read? ("border-" ++ Named.name s) = none := by
  cases s <;> decide

theorem ClassName.read?_textTransform (t : TextTransform) : read? (Named.name t) = none := by
  cases t <;> decide

section ValuesIn

variable {name : String}

theorem Layout.valuesIn_widthClass (l : Layout) :
    valuesIn name [l.widthClass] =
      if l.widthMode = .fixed then (if name = "w-" then [px l.fixedWidth] else []) else [] := by
  have hauto : read? "w-auto" = none := by decide
  have hfull : read? "w-full" = none := by decide
  have hfixed : valuesIn name [valued "w" (px l.fixedWidth)] =
      if name = "w-" then [px l.fixedWidth] else [] := by
    rw [valuesIn_cons_valued (by decide), underscored_eq_self (isUnbroken_px _)]
    exact List.append_nil _
  unfold widthClass
  split
  · next h => rw [valuesIn_cons_plain hauto, h]; rfl
  · next h => rw [valuesIn_cons_plain hfull, h]; rfl
  · next h => rw [measured_px, hfixed, h]; rfl

@[simp] theorem Sides.valuesIn_classes (s : Sides)
    (h : name ∉ ["p-", "px-", "py-", "pt-", "pb-", "pl-", "pr-"]) :
    valuesIn name s.classes = [] := by
  simp only [List.mem_cons, not_or] at h
  simp (disch := decide) [classes, valuesIn_cons_valued, h]

@[simp] theorem Corners.valuesIn_classes (c : Corners)
    (h : name ∉ ["rounded-", "rounded-tl-", "rounded-tr-", "rounded-br-", "rounded-bl-"]) :
    valuesIn name c.classes = [] := by
  simp only [List.mem_cons, not_or] at h
  simp (disch := decide) [classes, valuesIn_cons_valued, h]

@[simp] theorem Layout.valuesIn_classes (l : Layout) :
    valuesIn name l.classes =
      (if l.widthMode = .fixed then (if name = "w-" then [px l.fixedWidth] else []) else []) ++
      (if 0 < l.minWidth then (if name = "min-w-" then [px l.minWidth] else []) else []) ++
      (if 0 < l.maxWidth then (if name = "max-w-" then [px l.maxWidth] else []) else []) ++
      valuesIn name l.padding.classes ++ valuesIn name l.radius.classes ++
      (if 0 < l.borderWidth then (if name = "border-" then [px l.borderWidth] else [])
        else []) := by
  rw [classes, valuesIn_append, valuesIn_append, valuesIn_append, valuesIn_append, valuesIn_append,
    valuesIn_append, valuesIn_widthClass, valuesIn_positive (by decide),
    valuesIn_positive (by decide), valuesIn_positive (by decide), valuesIn_ite,
    valuesIn_cons_plain (read?_borderStyle _), valuesIn_nil, ite_self, List.append_nil]
  rfl

@[simp] theorem Typography.valuesIn_classes (t : Typography) :
    valuesIn name t.classes =
      (if name = "font-" then [underscored t.fontFamily] else []) ++
      (if name = "text-" then [underscored (px t.fontSize)] else []) ++
      (if name = "font-" then [underscored t.fontWeight] else []) ++
      (if name = "tracking-" then [underscored (em t.letterSpacing)] else []) ++
      (if name = "leading-" then [underscored t.lineHeight.css] else []) := by
  have htransform := read?_textTransform t.textTransform
  rw [classes, valuesIn_append, valuesIn_ite, valuesIn_cons_plain htransform, valuesIn_nil,
    ite_self, List.append_nil]
  simp (disch := decide) only [measured_px, measured_em, measured_css, valuesIn_cons_valued,
    valuesIn_nil, List.append_nil, List.append_assoc]
  rfl

@[simp] theorem Effects.valuesIn_classes (e : Effects) :
    valuesIn name e.classes =
      (if 0 < e.backdropBlur then (if name = "backdrop-blur-" then [px e.backdropBlur] else [])
        else []) ++
      (if 0 < e.bgBlur then (if name = "blur-" then [px e.bgBlur] else []) else []) := by
  rw [classes, valuesIn_append, valuesIn_positive (by decide), valuesIn_positive (by decide)]
  rfl

@[simp] theorem Motion.valuesIn_classes (m : Motion) :
    valuesIn name m.classes =
      (if name = "duration-" then [underscored (ms m.duration)] else []) ++
      (if name = "ease-" then [underscored m.easing] else []) ++
      (if name = "delay-" then [underscored (ms m.delay)] else []) := by
  have hall : read? "transition-all" = none := by decide
  rw [classes, valuesIn_cons_plain hall]
  simp (disch := decide) only [measured_ms, valuesIn_cons_valued, valuesIn_nil, List.append_nil,
    List.append_assoc]
  rfl

/-- The values that the classes of a look hold for a name. -/
def Variant.values (v : Variant) (l : Look) (name : String) : List String :=
  (if name = v.qualifier ++ "bg-" then [underscored l.background.css] else []) ++
  (if name = v.qualifier ++ "text-" then [underscored l.textColor] else []) ++
  (if name = v.qualifier ++ "border-" then [underscored l.borderColor] else []) ++
  (if v.opacity || !(l.opacity == 1) then
    (if name = v.qualifier ++ "opacity-" then [underscored l.opacity.css] else []) else []) ++
  (if v.shadow && !l.shadows.isEmpty then
    (if name = v.qualifier ++ "shadow-" then [underscored (boxShadow l.shadows)] else []) else [])

namespace Variant

variable (v : Variant) (l : Look)

theorem values_bg : v.values l (v.qualifier ++ "bg-") = [underscored l.background.css] := by
  simp [values]

theorem values_text : v.values l (v.qualifier ++ "text-") = [underscored l.textColor] := by
  simp [values]

theorem values_border : v.values l (v.qualifier ++ "border-") = [underscored l.borderColor] := by
  simp [values]

theorem values_opacity : v.values l (v.qualifier ++ "opacity-") =
    if v.opacity || !(l.opacity == 1) then [underscored l.opacity.css] else [] := by
  simp [values]

theorem values_shadow : v.values l (v.qualifier ++ "shadow-") =
    if v.shadow && !l.shadows.isEmpty then [underscored (boxShadow l.shadows)] else [] := by
  simp [values]

end Variant

theorem Variant.valuesIn_classes {v : Variant} (hv : v ∈ all) (l : Look) :
    valuesIn name (v.classes l) = v.values l name := by
  have hall : ∀ v ∈ all, '[' ∉ v.qualifier.toList ∧
      ∀ c ∈ v.fixed.map (v.qualifier ++ ·), read? c = none := by decide
  obtain ⟨hqualifier, hfixed⟩ := hall v hv
  rw [classes, unqualified, List.map_append, valuesIn_append, valuesIn_of_plain hfixed,
    List.append_nil, values]
  simp (disch := decide) only [List.map_append, List.map_cons, List.map_nil,
    apply_ite (List.map _), measured_css, valuesIn_append, valuesIn_ite,
    valuesIn_cons_qualified hqualifier, valuesIn_nil, List.append_nil, List.append_assoc]
  rfl

end ValuesIn

/-! ### The plain classes -/

/-- A length is none of the words that end otherwise. -/
theorem Css.px_ne {s : String} (h : s.toList.getLast? ≠ some 'x') (x : Quantity) : px x ≠ s := by
  rintro rfl
  have hlast : "px".toList = ['p', 'x'] := by decide
  rw [px, String.toList_append, hlast] at h
  simp at h

theorem Layout.widthCss_eq_auto_iff (l : Layout) : l.widthCss = "auto" ↔ l.widthMode = .auto := by
  have hpx : px l.fixedWidth ≠ "auto" := px_ne (by decide) _
  unfold widthCss
  cases l.widthMode <;> simp [hpx]

theorem Layout.widthCss_eq_full_iff (l : Layout) : l.widthCss = "100%" ↔ l.widthMode = .full := by
  have hpx : px l.fixedWidth ≠ "100%" := px_ne (by decide) _
  unfold widthCss
  cases l.widthMode <;> simp [hpx]

theorem Layout.plainIn_classes (l : Layout) :
    plainIn l.classes =
      (if l.widthCss = "auto" then ["w-auto"] else if l.widthCss = "100%" then ["w-full"]
        else []) ++
      (if Named.name l.borderStyle = "solid" then []
        else ["border-" ++ Named.name l.borderStyle]) := by
  have hauto : read? "w-auto" = none := by decide
  have hfull : read? "w-full" = none := by decide
  have hstyle := read?_borderStyle l.borderStyle
  have hsolid : Named.name l.borderStyle = "solid" ↔ l.borderStyle = .solid := by
    cases l.borderStyle <;> decide
  have hwidth : plainIn [l.widthClass] =
      if l.widthMode = .auto then ["w-auto"] else if l.widthMode = .full then ["w-full"]
        else [] := by
    unfold widthClass
    split
    · next h => rw [plainIn_cons_plain hauto, h]; rfl
    · next h => rw [plainIn_cons_plain hfull, h]; rfl
    · next h => rw [measured_px, plainIn_cons_valued (by decide), h]; rfl
  rw [classes]
  simp (disch := decide) only [Sides.classes, Corners.classes, measured_px, plainIn_append,
    plainIn_positive, plainIn_ite, plainIn_cons_valued, plainIn_nil, ite_self, List.append_nil,
    hwidth, plainIn_cons_plain hstyle, hsolid, l.widthCss_eq_auto_iff, l.widthCss_eq_full_iff]

theorem Typography.plainIn_classes (t : Typography) :
    plainIn t.classes =
      if Named.name t.textTransform = "none" then [] else [Named.name t.textTransform] := by
  have htransform := read?_textTransform t.textTransform
  have hnone : Named.name t.textTransform = "none" ↔ t.textTransform = .none := by
    cases t.textTransform <;> decide
  simp (disch := decide) only [classes, measured_px, measured_em, measured_css, plainIn_append,
    plainIn_cons_valued, plainIn_cons_plain htransform, plainIn_ite, plainIn_nil, hnone,
    List.nil_append]

theorem Effects.plainIn_classes (e : Effects) : plainIn e.classes = [] := by
  rw [classes, plainIn_append, plainIn_positive (by decide), plainIn_positive (by decide)]
  rfl

theorem Motion.plainIn_classes (m : Motion) : plainIn m.classes = ["transition-all"] := by
  have hall : read? "transition-all" = none := by decide
  rw [classes, plainIn_cons_plain hall]
  simp (disch := decide) only [measured_ms, plainIn_cons_valued, plainIn_nil]

theorem Variant.plainIn_classes {v : Variant} (hqualifier : '[' ∉ v.qualifier.toList)
    (hfixed : plainIn v.fixed = v.fixed) (l : Look) :
    plainIn (v.classes l) = v.fixed.map (v.qualifier ++ ·) := by
  rw [classes, plainIn_map hqualifier, unqualified, plainIn_append, hfixed]
  simp (disch := decide) only [measured_css, plainIn_append, plainIn_ite, plainIn_cons_valued,
    plainIn_nil, ite_self, List.nil_append]

namespace Button

/-! ### The class list of a button -/

/-- The values that the class list of a button holds under a name. -/
def valuesOf (b : Button) (name : String) : List String := valuesIn name (words b.classList)

/-- The classes in the class list of a button that hold no value. -/
def plainClasses (b : Button) : List String := plainIn (words b.classList)

theorem valuesOf_eq (b : Button) (name : String) :
    b.valuesOf name =
      valuesIn name b.layout.classes ++ valuesIn name b.typography.classes ++
      valuesIn name b.effects.classes ++ valuesIn name b.motion.classes ++
      Variant.all.flatMap fun v => v.values (b.look v.state) name := by
  have hicon : read? "[&_svg]:stroke-current" = none := by decide
  have hstates : (Variant.all.flatMap fun v => valuesIn name (v.classes (b.look v.state))) =
      Variant.all.flatMap fun v => v.values (b.look v.state) name :=
    List.flatMap_congr fun v hv => Variant.valuesIn_classes hv _
  rw [valuesOf, words_classList, classes]
  simp only [valuesIn_append, valuesIn_flatMap, valuesIn_ite, valuesIn_cons_plain hicon,
    valuesIn_nil, ite_self, List.append_nil, hstates]

theorem plainClasses_eq (b : Button) :
    b.plainClasses =
      plainIn b.layout.classes ++ plainIn b.typography.classes ++
      ["transition-all", "disabled:cursor-not-allowed"] ++
      (if b.icon.enabled then ["[&_svg]:stroke-current"] else []) := by
  have hicon : read? "[&_svg]:stroke-current" = none := by decide
  have hstates : (Variant.all.flatMap fun v => plainIn (v.classes (b.look v.state))) =
      ["disabled:cursor-not-allowed"] := by
    simp (disch := decide) only [Variant.all, List.flatMap_cons, List.flatMap_nil,
      Variant.plainIn_classes]
    rfl
  rw [plainClasses, words_classList, classes]
  simp only [plainIn_append, plainIn_flatMap, plainIn_ite, plainIn_cons_plain hicon,
    plainIn_nil, Effects.plainIn_classes, Motion.plainIn_classes, hstates, List.append_assoc]
  rfl

end Button

end ButtonStyle

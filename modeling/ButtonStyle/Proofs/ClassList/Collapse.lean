import ButtonStyle.Proofs.Button.Edits
import ButtonStyle.Proofs.ClassList.Values
import ButtonStyle.Proofs.Css.Stylesheet
import ButtonStyle.Proofs.Number.Text

/-!
# Collapsed lengths

The padding of a button stands in its class list as one class, as two or as four, and the radius of
its corners as one or as four.  Each class sets the lengths of some sides or corners (`Places`), and
read in this way the classes are held against what the stylesheet declares for `padding` and
`border-radius`, where there are always four lengths.

Main statement: **there are no more classes than the lengths need, each place is set by just one of
them, and to the length that the stylesheet declares for it** (`lengths_collapse`).
-/

namespace ButtonStyle

open Css Text ClassName

/-! ### Classes of several names -/

namespace ClassName

/-- The names and values of the classes that have one of certain names, in their order. -/
def classesIn (names cs : List String) : List (String × String) :=
  (cs.filterMap read?).filter fun c => c.1 ∈ names

section ClassesIn

variable {names cs : List String}

theorem classesIn_append (as bs : List String) :
    classesIn names (as ++ bs) = classesIn names as ++ classesIn names bs := by
  rw [classesIn, List.filterMap_append, List.filter_append]
  rfl

theorem classesIn_eq_nil (h : ∀ name ∈ names, valuesIn name cs = []) : classesIn names cs = [] := by
  refine List.filter_eq_nil_iff.2 fun c hc hname => ?_
  obtain ⟨text, htext, hread⟩ := List.mem_filterMap.1 hc
  have hnone := List.filterMap_eq_nil_iff.1 (h c.1 (of_decide_eq_true hname)) text htext
  simp [hread] at hnone

/-- Classes among which all of certain names stand. -/
theorem classesIn_of_infix {part : List String} (hpart : part <:+: cs)
    (h : ∀ name ∈ names, valuesIn name cs = valuesIn name part) :
    classesIn names cs = classesIn names part := by
  obtain ⟨before, after, rfl⟩ := hpart
  have hlength (name : String) (hname : name ∈ names) :
      (valuesIn name before).length + (valuesIn name after).length = 0 := by
    have hvalues := congrArg List.length (h name hname)
    simp only [valuesIn_append, List.length_append] at hvalues
    omega
  have hbefore : classesIn names before = [] := classesIn_eq_nil fun name hname =>
    List.length_eq_zero_iff.1 (Nat.eq_zero_of_add_eq_zero_right (hlength name hname))
  have hafter : classesIn names after = [] := classesIn_eq_nil fun name hname =>
    List.length_eq_zero_iff.1 (Nat.eq_zero_of_add_eq_zero_left (hlength name hname))
  rw [classesIn_append, classesIn_append, hbefore, hafter, List.nil_append, List.append_nil]

@[simp] theorem classesIn_nil : classesIn names [] = [] := rfl

theorem classesIn_cons_px {n : String} (h : '[' ∉ (n ++ "-").toList) (x : Quantity) :
    classesIn names (valued n (px x) :: cs) =
      if n ++ "-" ∈ names then (n ++ "-", px x) :: classesIn names cs else classesIn names cs := by
  rw [classesIn, List.filterMap_cons, read?_valued h,
    underscored_eq_self (isUnbroken_px x)]
  simp only [List.filter_cons, decide_eq_true_eq]
  rfl

end ClassesIn

end ClassName

/-! ### Places that have lengths -/

/-- Places that have a length each, as a property and as classes tell the lengths. -/
structure Places (α : Type) where
  /-- The property that declares the lengths. -/
  property : String
  /-- The order in which it declares them. -/
  order : List α
  /-- The names of the classes that set lengths, and which places they set. -/
  setters : List (String × List α)

namespace Places

/-- The sides of a box. -/
def sides : Places Side where
  property := "padding"
  order := [.top, .right, .bottom, .left]
  setters :=
    [("p-", [.top, .right, .bottom, .left]), ("px-", [.left, .right]), ("py-", [.top, .bottom]),
      ("pt-", [.top]), ("pb-", [.bottom]), ("pl-", [.left]), ("pr-", [.right])]

/-- The corners of a box. -/
def corners : Places Corner where
  property := "border-radius"
  order := [.topLeft, .topRight, .bottomRight, .bottomLeft]
  setters :=
    [("rounded-", [.topLeft, .topRight, .bottomRight, .bottomLeft]), ("rounded-tl-", [.topLeft]),
      ("rounded-tr-", [.topRight]), ("rounded-br-", [.bottomRight]),
      ("rounded-bl-", [.bottomLeft])]

variable {α : Type} (places : Places α)

/-- The names of the classes that set lengths. -/
def names : List String := places.setters.map Prod.fst

variable [DecidableEq α]

/-- The lengths that a place is set to by classes, in their order. -/
def setIn (place : α) (cs : List (String × String)) : List String :=
  cs.filterMap fun c =>
    if place ∈ (places.setters.lookup c.1).getD [] then some c.2 else none

/-- The length that is declared for a place in the first rule of a stylesheet. -/
def declaredIn? (place : α) (stylesheet : String) : Option String := do
  let lines := stylesheet.toList.splitOn '\n'
  let value ← valueIn (readDeclarations (lines.drop 1)).1 places.property
  (places.order.zip (words value)).lookup place

end Places

/-! ### Lengths -/

namespace Css

/-- There are no blanks in a length. -/
theorem notMem_px {c : Char} (hc : isBlank c = true) (x : Quantity) : c ∉ (px x).toList := by
  intro h
  rw [isUnbroken_px x c h] at hc
  cases hc

/-- Lengths that are equal by value have the same text. -/
theorem px_eq_of_beq {x y : Quantity} (h : (x == y) = true) : px x = px y :=
  Quantity.css_append_eq_iff.2 (Quantity.beq_iff.1 h).1

/-- Lengths with spaces between them are words. -/
theorem words_pxs (xs : List Quantity) : words (" ".intercalate (xs.map px)) = xs.map px := by
  refine words_intercalate (List.forall_mem_map.2 fun x _ => ⟨?_, isUnbroken_px x⟩)
  simp [px]

end Css

namespace Button

variable {α : Type}

/-- The classes of a button that set lengths at places. -/
def settersOf (b : Button) (places : Places α) : List (String × String) :=
  classesIn places.names (words b.classList)

/-! ### What the stylesheet declares -/

/-- The stylesheet begins with the lengths of the padding and of the radius. -/
theorem exists_readDeclarations_stylesheet (b : Button) :
    ∃ more, (readDeclarations ((b.stylesheet.toList.splitOn '\n').drop 1)).1 =
      [⟨"padding", b.layout.padding.css⟩, ⟨"border-radius", b.layout.radius.css⟩] ++ more := by
  have hblank : isBlank '\n' = true := by decide
  have hselectors : '\n' ∉ selectorLine [buttonSelector] := by decide
  obtain ⟨more, hmore⟩ : ∃ more, (b.restRule buttonSelector).declarations =
      [⟨"padding", b.layout.padding.css⟩, ⟨"border-radius", b.layout.radius.css⟩] ++ more := by
    simp only [restRule, Layout.declarations, List.append_assoc, List.cons_append, List.nil_append]
    exact ⟨_, rfl⟩
  rw [stylesheet_eq_sheet, rules]
  refine exists_readDeclarations_sheet rfl hmore hselectors ?_ _
  simp [Declaration.line, Sides.css, Corners.css, notMem_px hblank]

/-- The value of the property is cut into its lengths. -/
theorem declaredIn?_stylesheet [DecidableEq α] (b : Button) (places : Places α) (xs : List Quantity)
    (h : valueIn [⟨"padding", b.layout.padding.css⟩, ⟨"border-radius", b.layout.radius.css⟩]
      places.property = some (" ".intercalate (xs.map px))) (place : α) :
    places.declaredIn? place b.stylesheet = (places.order.zip (xs.map px)).lookup place := by
  obtain ⟨more, hmore⟩ := b.exists_readDeclarations_stylesheet
  have hvalue : valueIn (readDeclarations ((b.stylesheet.toList.splitOn '\n').drop 1)).1
      places.property = some (" ".intercalate (xs.map px)) := by
    rw [hmore, valueIn_append, h, Option.some_or]
  simp only [Places.declaredIn?, hvalue, Option.bind_eq_bind, Option.bind_some, words_pxs]

theorem declaredIn?_sides (b : Button) (side : Side) :
    Places.sides.declaredIn? side b.stylesheet = some (px (b.layout.padding.get side)) := by
  rw [b.declaredIn?_stylesheet Places.sides [b.layout.padding.top, b.layout.padding.right,
    b.layout.padding.bottom, b.layout.padding.left]]
  · cases side <;> rfl
  · simp [Places.sides, Sides.css, String.intercalate_cons_cons, String.append_assoc]

theorem declaredIn?_corners (b : Button) (corner : Corner) :
    Places.corners.declaredIn? corner b.stylesheet = some (px (b.layout.radius.get corner)) := by
  rw [b.declaredIn?_stylesheet Places.corners [b.layout.radius.topLeft, b.layout.radius.topRight,
    b.layout.radius.bottomRight, b.layout.radius.bottomLeft]]
  · cases corner <;> rfl
  · simp [Places.corners, Corners.css, String.intercalate_cons_cons, String.append_assoc]

/-! ### Class lists -/

/-- The names of the classes for all else than padding and radius. -/
def otherNames : List String :=
  ["w-", "min-w-", "max-w-", "border-", "font-", "text-", "tracking-", "leading-",
    "backdrop-blur-", "blur-", "duration-", "ease-", "delay-"] ++
  Variant.all.flatMap fun v =>
    ["bg-", "text-", "border-", "opacity-", "shadow-"].map (v.qualifier ++ ·)

theorem valuesOf_of_notMem (b : Button) {name : String} (h : name ∉ otherNames) :
    b.valuesOf name =
      valuesIn name b.layout.padding.classes ++ valuesIn name b.layout.radius.classes := by
  simp only [otherNames, Variant.all, List.flatMap_cons, List.flatMap_nil, List.map_cons,
    List.map_nil, String.empty_append, String.reduceAppend, List.append_nil, List.cons_append,
    List.nil_append, List.mem_cons, List.not_mem_nil, or_false, not_or] at h
  rw [valuesOf_eq]
  simp [Variant.all, Variant.values, h]

/-- The classes for padding and radius stand beside each other. -/
theorem exists_classes_eq (b : Button) : ∃ before after, b.classes =
    before ++ (b.layout.padding.classes ++ b.layout.radius.classes) ++ after := by
  simp only [classes, Layout.classes, List.append_assoc]
  exact ⟨[b.layout.widthClass] ++ positive "min-w" b.layout.minWidth ++
    positive "max-w" b.layout.maxWidth, _, by simp only [List.append_assoc]; rfl⟩

theorem settersOf_eq (b : Button) (places : Places α)
    (h : ∀ name ∈ places.names, name ∉ otherNames) :
    b.settersOf places = classesIn places.names b.layout.padding.classes ++
      classesIn places.names b.layout.radius.classes := by
  obtain ⟨before, after, hclasses⟩ := b.exists_classes_eq
  rw [settersOf, ← classesIn_append]
  refine classesIn_of_infix ⟨before, after, ?_⟩ fun name hname => ?_
  · rw [words_classList, hclasses]
  · rw [valuesIn_append]
    exact b.valuesOf_of_notMem (h name hname)

theorem settersOf_sides (b : Button) :
    b.settersOf Places.sides = classesIn Places.sides.names b.layout.padding.classes := by
  have hnames : ∀ name ∈ Places.sides.names,
      name ∉ ["rounded-", "rounded-tl-", "rounded-tr-", "rounded-br-", "rounded-bl-"] := by decide
  rw [b.settersOf_eq Places.sides (by decide),
    classesIn_eq_nil fun name hname => Corners.valuesIn_classes _ (hnames name hname),
    List.append_nil]

theorem settersOf_corners (b : Button) :
    b.settersOf Places.corners = classesIn Places.corners.names b.layout.radius.classes := by
  have hnames : ∀ name ∈ Places.corners.names,
      name ∉ ["p-", "px-", "py-", "pt-", "pb-", "pl-", "pr-"] := by decide
  rw [b.settersOf_eq Places.corners (by decide),
    classesIn_eq_nil fun name hname => Sides.valuesIn_classes _ (hnames name hname),
    List.nil_append]

end Button

/-! ### Collapsing -/

namespace Sides

variable (s : Sides)

theorem classesIn_classes : classesIn Places.sides.names s.classes =
    if s.allEqual then [("p-", px s.top)]
    else if s.pairsEqual then [("px-", px s.left), ("py-", px s.top)]
    else [("pt-", px s.top), ("pb-", px s.bottom), ("pl-", px s.left), ("pr-", px s.right)] := by
  unfold classes
  split
  · simp (disch := decide) [classesIn_cons_px, Places.names, Places.sides]
  · split <;> simp (disch := decide) [classesIn_cons_px, Places.names, Places.sides]

theorem allEqual_iff : s.allEqual = true ↔ ∀ side side', (s.get side == s.get side') = true := by
  simp only [allEqual, Bool.and_eq_true]
  constructor
  · rintro ⟨⟨hvertical, hhorizontal⟩, hboth⟩
    have hleft (side : Side) : (s.get side == s.left) = true := by
      cases side with
      | top => exact hboth
      | right => exact BEq.symm hhorizontal
      | bottom => exact BEq.trans (BEq.symm hvertical) hboth
      | left => exact BEq.trans (BEq.symm hboth) hboth
    exact fun side side' => BEq.trans (hleft side) (BEq.symm (hleft side'))
  · exact fun h => ⟨⟨h .top .bottom, h .left .right⟩, h .top .left⟩

theorem allEqual_all (x : Number) : (all x).allEqual = true := by
  simp [allEqual, all, Number.beq_iff]

theorem pairsEqual_iff : s.pairsEqual = true ↔
    (s.get .top == s.get .bottom) = true ∧ (s.get .left == s.get .right) = true := by
  rw [pairsEqual, Bool.and_eq_true]
  rfl

theorem pairsEqual_of_allEqual (h : s.allEqual = true) : s.pairsEqual = true :=
  s.pairsEqual_iff.2 ⟨s.allEqual_iff.1 h _ _, s.allEqual_iff.1 h _ _⟩

theorem setIn_classes (side : Side) :
    Places.sides.setIn side (classesIn Places.sides.names s.classes) = [px (s.get side)] := by
  rw [classesIn_classes]
  split
  · next h =>
    have hone (x : Quantity) : Places.sides.setIn side [("p-", px x)] = [px x] := by
      cases side <;> rfl
    rw [hone, px_eq_of_beq (s.allEqual_iff.1 h side .top)]
    rfl
  · split
    · next h =>
      obtain ⟨hvertical, hhorizontal⟩ := s.pairsEqual_iff.1 h
      cases side with
      | top | left => rfl
      | right => exact congrArg ([·]) (px_eq_of_beq hhorizontal)
      | bottom => exact congrArg ([·]) (px_eq_of_beq hvertical)
    · cases side <;> rfl

end Sides

namespace Corners

variable (c : Corners)

theorem classesIn_classes : classesIn Places.corners.names c.classes =
    if c.allEqual then [("rounded-", px c.topLeft)]
    else [("rounded-tl-", px c.topLeft), ("rounded-tr-", px c.topRight),
      ("rounded-br-", px c.bottomRight), ("rounded-bl-", px c.bottomLeft)] := by
  unfold classes
  split <;> simp (disch := decide) [classesIn_cons_px, Places.names, Places.corners]

theorem allEqual_iff :
    c.allEqual = true ↔ ∀ corner corner', (c.get corner == c.get corner') = true := by
  simp only [allEqual, Bool.and_eq_true]
  constructor
  · rintro ⟨⟨htopRight, hbottomRight⟩, hbottomLeft⟩
    have hfirst (corner : Corner) : (c.topLeft == c.get corner) = true := by
      cases corner with
      | topLeft => exact BEq.trans htopRight (BEq.symm htopRight)
      | topRight => exact htopRight
      | bottomRight => exact hbottomRight
      | bottomLeft => exact hbottomLeft
    exact fun corner corner' => BEq.trans (BEq.symm (hfirst corner)) (hfirst corner')
  · exact fun h => ⟨⟨h .topLeft .topRight, h .topLeft .bottomRight⟩, h .topLeft .bottomLeft⟩

theorem allEqual_all (x : Number) : (all x).allEqual = true := by
  simp [allEqual, all, Number.beq_iff]

theorem setIn_classes (corner : Corner) :
    Places.corners.setIn corner (classesIn Places.corners.names c.classes) =
      [px (c.get corner)] := by
  rw [classesIn_classes]
  split
  · next h =>
    have hone (x : Quantity) : Places.corners.setIn corner [("rounded-", px x)] = [px x] := by
      cases corner <;> rfl
    rw [hone, px_eq_of_beq (c.allEqual_iff.1 h corner .topLeft)]
    rfl
  · cases corner <;> rfl

end Corners

namespace Button

/-- Classes and stylesheet tell the same lengths for all places, and the classes tell each once. -/
def TellsLengths {α : Type} [DecidableEq α] (b : Button) (places : Places α)
    (length : α → Quantity) : Prop :=
  ∀ place, places.setIn place (b.settersOf places) = [px (length place)] ∧
    places.declaredIn? place b.stylesheet = some (px (length place))

/-- The classes for the padding are as few as the lengths allow. -/
structure PaddingCollapses (b : Button) : Prop where
  one : (b.settersOf Places.sides).map Prod.fst = ["p-"] ↔
    ∀ side side', b.layout.padding.get side == b.layout.padding.get side'
  two : (b.settersOf Places.sides).map Prod.fst = ["px-", "py-"] ↔
    (b.layout.padding.get .top == b.layout.padding.get .bottom ∧
      b.layout.padding.get .left == b.layout.padding.get .right) ∧
    ¬ ∀ side side', b.layout.padding.get side == b.layout.padding.get side'
  four : (b.settersOf Places.sides).map Prod.fst = ["pt-", "pb-", "pl-", "pr-"] ↔
    ¬ (b.layout.padding.get .top == b.layout.padding.get .bottom ∧
      b.layout.padding.get .left == b.layout.padding.get .right)
  lengths : b.TellsLengths Places.sides b.layout.padding.get

/-- The classes for the radius are as few as the lengths allow. -/
structure RadiusCollapses (b : Button) : Prop where
  one : (b.settersOf Places.corners).map Prod.fst = ["rounded-"] ↔
    ∀ corner corner', b.layout.radius.get corner == b.layout.radius.get corner'
  four : (b.settersOf Places.corners).map Prod.fst =
      ["rounded-tl-", "rounded-tr-", "rounded-br-", "rounded-bl-"] ↔
    ¬ ∀ corner corner', b.layout.radius.get corner == b.layout.radius.get corner'
  lengths : b.TellsLengths Places.corners b.layout.radius.get

theorem paddingCollapses (b : Button) : b.PaddingCollapses := by
  have hset := b.settersOf_sides
  rw [Sides.classesIn_classes] at hset
  refine ⟨?_, ?_, ?_, fun side => ⟨?_, b.declaredIn?_sides side⟩⟩
  case refine_4 => rw [b.settersOf_sides, Sides.setIn_classes]
  all_goals
    rw [hset]
    simp only [← Sides.allEqual_iff, ← Sides.pairsEqual_iff]
    cases hall : b.layout.padding.allEqual with
    | true => simp [Sides.pairsEqual_of_allEqual _ hall]
    | false => cases hpairs : b.layout.padding.pairsEqual <;> simp

theorem radiusCollapses (b : Button) : b.RadiusCollapses := by
  have hset := b.settersOf_corners
  rw [Corners.classesIn_classes] at hset
  refine ⟨?_, ?_, fun corner => ⟨?_, b.declaredIn?_corners corner⟩⟩
  case refine_3 => rw [b.settersOf_corners, Corners.setIn_classes]
  all_goals
    rw [hset, ← Corners.allEqual_iff]
    cases hall : b.layout.radius.allEqual <;> simp

/-- **The classes for padding and radius are as few as the lengths allow, and tell the lengths that
the stylesheet declares**; of lengths that were set to a number all at once there is one class. -/
theorem lengths_collapse (b : Button) :
    b.PaddingCollapses ∧ b.RadiusCollapses ∧
      ∀ x : Number, (Edit.apply b (.padding none x)).settersOf Places.sides = [("p-", px x)] ∧
        (Edit.apply b (.radius none x)).settersOf Places.corners = [("rounded-", px x)] := by
  refine ⟨b.paddingCollapses, b.radiusCollapses, fun x => ⟨?_, ?_⟩⟩
  · have hset : (Edit.apply b (.padding none x)).layout.padding = .all (.finite x) := rfl
    rw [settersOf_sides, hset, Sides.classesIn_classes, if_pos (Sides.allEqual_all x)]
    rfl
  · have hset : (Edit.apply b (.radius none x)).layout.radius = .all (.finite x) := rfl
    rw [settersOf_corners, hset, Corners.classesIn_classes, if_pos (Corners.allEqual_all x)]
    rfl

end Button

end ButtonStyle

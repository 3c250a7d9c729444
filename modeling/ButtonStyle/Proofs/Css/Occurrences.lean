import ButtonStyle.Proofs.Css.Scope

/-!
# What scoping replaces

An occurrence of a name is bare when no longer name begins with it (`IsBare`).  A text is its parts,
characters and holes, with a word in each hole (`filled`).  Main statement: **scoping puts the
element into the place of each bare selector, and changes nothing else**
(`scopedTo_fills_bare_places`).  If the id does not hold the selector, no bare one is left, so that
scoping once more changes nothing.

A name is a mark and characters that continue a class, as `.` and `btn`.  So two occurrences do not
overlap, and none begins where the new name meets what stands around it.
-/

namespace ButtonStyle.Css

/-! ### Bare occurrences -/

/-- Whether a name is at its end before `rest`: no ASCII letter or digit, hyphen or underscore
follows. -/
def EndsName (rest : List Char) : Prop :=
  ∀ c ∈ rest.head?, ¬ (('a' ≤ c ∧ c ≤ 'z') ∨ ('A' ≤ c ∧ c ≤ 'Z') ∨ ('0' ≤ c ∧ c ≤ '9') ∨
    c = '-' ∨ c = '_')

/-- A bare occurrence of a name in a text, between `u` and `v`. -/
def IsBare (name text u v : List Char) : Prop := text = u ++ name ++ v ∧ EndsName v

theorem continuesClass_iff (c : Char) : continuesClass c = true ↔
    ('a' ≤ c ∧ c ≤ 'z') ∨ ('A' ≤ c ∧ c ≤ 'Z') ∨ ('0' ≤ c ∧ c ≤ '9') ∨ c = '-' ∨ c = '_' := by
  have hc : continuesClass c =
      (((c.isUpper || c.isLower) || c.isDigit) || c = '-' || c = '_') := rfl
  have hupper : c.isUpper = decide ('A'.val ≤ c.val ∧ c.val ≤ 'Z'.val) := rfl
  have hlower : c.isLower = (decide ('a'.val ≤ c.val) && decide (c.val ≤ 'z'.val)) := rfl
  have hdigit : c.isDigit = (decide ('0'.val ≤ c.val) && decide (c.val ≤ '9'.val)) := rfl
  simp only [hc, hupper, hlower, hdigit, Bool.or_eq_true, Bool.and_eq_true, decide_eq_true_eq,
    Char.le_def]
  tauto

theorem endsName_iff {rest : List Char} : EndsName rest ↔ isLonger rest = false := by
  simp only [EndsName, ← continuesClass_iff, isLonger, Bool.not_eq_true]
  cases rest.head? <;> simp

/-! ### Texts with holes -/

/-- The text of parts, with a word in each hole. -/
def filled (word : List Char) (parts : List (Option Char)) : List Char :=
  parts.flatMap fun part => part.elim word fun c => [c]

/-- A hole among parts, between the texts `u` and `v`. -/
def HoleAt (word : List Char) (parts : List (Option Char)) (u v : List Char) : Prop :=
  ∃ before after, parts = before ++ none :: after ∧ u = filled word before ∧ v = filled word after

section Holes

variable {word u v : List Char} {parts : List (Option Char)}

@[simp] theorem filled_nil : filled word [] = [] := rfl

@[simp] theorem filled_none : filled word (none :: parts) = word ++ filled word parts := rfl

@[simp] theorem filled_some (c : Char) :
    filled word (some c :: parts) = c :: filled word parts := rfl

@[simp] theorem filled_map_some_append (cs : List Char) :
    filled word (cs.map some ++ parts) = cs ++ filled word parts := by
  induction cs with
  | nil => rfl
  | cons c cs ih => rw [List.map_cons, List.cons_append, filled_some, ih, List.cons_append]

theorem not_holeAt_nil : ¬ HoleAt word [] u v := by
  rintro ⟨before, after, h, -, -⟩
  cases before <;> cases h

theorem holeAt_none : HoleAt word (none :: parts) u v ↔
    (u = [] ∧ v = filled word parts) ∨ ∃ u', u = word ++ u' ∧ HoleAt word parts u' v := by
  constructor
  · rintro ⟨before, after, h, rfl, rfl⟩
    cases before with
    | nil =>
      obtain ⟨-, rfl⟩ := List.cons.inj h
      exact .inl ⟨rfl, rfl⟩
    | cons part before =>
      obtain ⟨rfl, hparts⟩ := List.cons.inj h
      exact .inr ⟨_, filled_none, before, after, hparts, rfl, rfl⟩
  · rintro (⟨rfl, rfl⟩ | ⟨u', rfl, before, after, rfl, rfl, rfl⟩)
    · exact ⟨[], parts, rfl, rfl, rfl⟩
    · exact ⟨none :: before, after, rfl, rfl, rfl⟩

theorem holeAt_some {c : Char} : HoleAt word (some c :: parts) u v ↔
    ∃ u', u = c :: u' ∧ HoleAt word parts u' v := by
  constructor
  · rintro ⟨before, after, h, rfl, rfl⟩
    cases before with
    | nil => cases h
    | cons part before =>
      obtain ⟨rfl, hparts⟩ := List.cons.inj h
      exact ⟨_, filled_some c, before, after, hparts, rfl, rfl⟩
  · rintro ⟨u', rfl, before, after, rfl, rfl, rfl⟩
    exact ⟨some c :: before, after, rfl, rfl, rfl⟩

theorem holeAt_map_some_append {cs : List Char} : HoleAt word (cs.map some ++ parts) u v ↔
    ∃ u', u = cs ++ u' ∧ HoleAt word parts u' v := by
  induction cs generalizing u with
  | nil => simp
  | cons c cs ih =>
    rw [List.map_cons, List.cons_append, holeAt_some]
    constructor
    · rintro ⟨u', rfl, h⟩
      obtain ⟨u'', rfl, hhole⟩ := ih.1 h
      exact ⟨u'', rfl, hhole⟩
    · rintro ⟨u', rfl, h⟩
      exact ⟨cs ++ u', rfl, ih.2 ⟨u', rfl, h⟩⟩

/-- Without a hole it does not matter which word is put into the holes. -/
theorem filled_congr (h : ∀ u v, ¬ HoleAt word parts u v) (word' : List Char) :
    filled word parts = filled word' parts := by
  refine List.flatMap_congr fun part hpart => ?_
  cases part with
  | some c => rfl
  | none =>
    obtain ⟨before, after, rfl⟩ := List.append_of_mem hpart
    exact absurd ⟨before, after, rfl, rfl, rfl⟩ (h _ _)

end Holes

/-! ### The occurrences of a name -/

/-- A text is taken apart at the occurrences of a name, each after the one before has ended. -/
@[elab_as_elim]
theorem occurrence_induction {name : List Char} (hname : name ≠ []) {motive : List Char → Prop}
    (nil : motive []) (occurrence : ∀ rest, motive rest → motive (name ++ rest))
    (other : ∀ c cs, ¬ name <+: c :: cs → motive cs → motive (c :: cs)) (text : List Char) :
    motive text := by
  induction hn : text.length using Nat.strongRecOn generalizing text with
  | _ n ih =>
    subst hn
    by_cases h : name <+: text
    · obtain ⟨rest, rfl⟩ := h
      have hpos := List.length_pos_iff.2 hname
      exact occurrence rest (ih _ (by rw [List.length_append]; omega) rest rfl)
    · cases text with
      | nil => exact nil
      | cons c cs => exact other c cs h (ih _ (Nat.lt_succ_self _) cs rfl)

theorem replaceName_nil (name new : List Char) : replaceName name new [] = [] := by
  rw [replaceName]

/-- Where a longer name begins with the name, it stays. -/
theorem replaceName_name_append_of_isLonger {name new rest : List Char} (hname : name ≠ [])
    (h : isLonger rest = true) :
    replaceName name new (name ++ rest) = name ++ replaceName name new rest := by
  rw [replaceName_append hname, if_pos h]

theorem isBare_cons_of_not_isPrefix {name cs u v : List Char} {c : Char}
    (h : ¬ name <+: c :: cs) :
    IsBare name (c :: cs) u v ↔ ∃ u', u = c :: u' ∧ IsBare name cs u' v := by
  constructor
  · rintro ⟨htext, hend⟩
    cases u with
    | nil => exact absurd ⟨v, htext.symm⟩ h
    | cons d u =>
      obtain ⟨rfl, hcs⟩ := List.cons.inj htext
      exact ⟨u, rfl, hcs, hend⟩
  · rintro ⟨u', rfl, rfl, hend⟩
    exact ⟨rfl, hend⟩

section Name

variable {mark : Char} {letters : List Char} (hmark : continuesClass mark = false)
  (hletters : ∀ c ∈ letters, continuesClass c = true)
include hmark hletters

/-- Occurrences do not overlap: the mark is none of the letters. -/
theorem isBare_name_append {rest u v : List Char} :
    IsBare (mark :: letters) (mark :: letters ++ rest) u v ↔
      (u = [] ∧ v = rest ∧ EndsName rest) ∨
        ∃ u', u = mark :: letters ++ u' ∧ IsBare (mark :: letters) rest u' v := by
  constructor
  · rintro ⟨htext, hend⟩
    cases u with
    | nil =>
      obtain rfl := List.append_cancel_left htext
      exact .inl ⟨rfl, rfl, hend⟩
    | cons c u =>
      obtain ⟨rfl, htail⟩ := List.cons.inj htext
      have htail : letters ++ rest = u ++ (mark :: letters ++ v) := by
        rw [← List.append_assoc]
        exact htail
      rcases List.append_eq_append_iff.1 htail with ⟨u', rfl, hrest⟩ | ⟨w, rfl, hrest⟩
      · refine .inr ⟨u', rfl, ?_, hend⟩
        rw [hrest, List.append_assoc]
      · -- the second mark would be a letter of the first name, or follow it at once
        cases w with
        | nil => exact .inr ⟨[], by simp, by simpa using hrest.symm, hend⟩
        | cons d w =>
          obtain ⟨rfl, -⟩ := List.cons.inj hrest
          have := hletters mark (by simp)
          rw [hmark] at this
          cases this
  · rintro (⟨rfl, rfl, hend⟩ | ⟨u', rfl, rfl, hend⟩)
    · exact ⟨rfl, hend⟩
    · exact ⟨by simp, hend⟩

/-- **Replacing fills the places of the bare occurrences**, which are holes among parts that
stay. -/
theorem exists_parts (new text : List Char) :
    ∃ parts, text = filled (mark :: letters) parts ∧
      replaceName (mark :: letters) new text = filled new parts ∧
      ∀ u v, IsBare (mark :: letters) text u v ↔ HoleAt (mark :: letters) parts u v := by
  have hname : mark :: letters ≠ [] := List.cons_ne_nil _ _
  induction text using occurrence_induction hname with
  | nil =>
    refine ⟨[], rfl, replaceName_nil _ _, fun u v => iff_of_false ?_ not_holeAt_nil⟩
    rintro ⟨h, -⟩
    cases u <;> cases h
  | occurrence rest ih =>
    obtain ⟨parts, htext, hnew, hbare⟩ := ih
    cases hlonger : isLonger rest with
    | false =>
      refine ⟨none :: parts, ?_, ?_, fun u v => ?_⟩
      · rw [filled_none, ← htext]
      · rw [replaceName_name_append hname hlonger, filled_none, hnew]
      · simp only [isBare_name_append hmark hletters, holeAt_none, hbare, ← htext,
          endsName_iff.2 hlonger, and_true]
    | true =>
      have hend : ¬ EndsName rest := by simp [endsName_iff, hlonger]
      refine ⟨(mark :: letters).map some ++ parts, ?_, ?_, fun u v => ?_⟩
      · rw [filled_map_some_append, ← htext]
      · rw [replaceName_name_append_of_isLonger hname hlonger, filled_map_some_append, hnew]
      · simp only [isBare_name_append hmark hletters, holeAt_map_some_append, hbare, hend,
          and_false, false_or]
  | other c cs h ih =>
    obtain ⟨parts, htext, hnew, hbare⟩ := ih
    refine ⟨some c :: parts, ?_, ?_, fun u v => ?_⟩
    · rw [filled_some, ← htext]
    · rw [replaceName_cons_of_not_isPrefix h, filled_some, hnew]
    · simp only [isBare_cons_of_not_isPrefix h, holeAt_some, hbare]

/-- Without a bare occurrence there is nothing to replace. -/
theorem replaceName_eq_self {text : List Char}
    (h : ∀ u v, ¬ IsBare (mark :: letters) text u v) (new : List Char) :
    replaceName (mark :: letters) new text = text := by
  obtain ⟨parts, htext, hnew, hbare⟩ := exists_parts hmark hletters new text
  have hholes : ∀ u v, ¬ HoleAt (mark :: letters) parts u v := fun u v hu =>
    h u v ((hbare u v).2 hu)
  rw [hnew, ← filled_congr hholes new, ← htext]

omit hmark in
/-- No bare occurrence begins in a text that does not hold the name, if what follows does not
continue a name. -/
theorem isBare_append_of_lacks {s rest u v : List Char} (hs : ¬ mark :: letters <:+: s)
    (hrest : isLonger rest = false) (h : IsBare (mark :: letters) (s ++ rest) u v) :
    ∃ u', u = s ++ u' ∧ IsBare (mark :: letters) rest u' v := by
  obtain ⟨htext, hend⟩ := h
  rw [List.append_assoc] at htext
  rcases List.append_eq_append_iff.1 htext with ⟨u', rfl, hrest'⟩ | ⟨front, rfl, hname⟩
  · exact ⟨u', rfl, by rw [hrest', List.append_assoc], hend⟩
  rcases List.append_eq_append_iff.1 hname with ⟨back, rfl, -⟩ | ⟨back, hback, rfl⟩
  · exact absurd ⟨u, back, by simp⟩ hs
  · -- the name goes over the end of `s`, and `back` is what is left of it
    cases back with
    | nil =>
      obtain rfl : mark :: letters = front := by rw [hback, List.append_nil]
      exact absurd (List.suffix_append u _).isInfix hs
    | cons c back =>
      cases front with
      | nil => exact ⟨[], by simp, by rw [hback]; rfl, hend⟩
      | cons d front =>
        obtain ⟨rfl, hletters'⟩ := List.cons.inj hback
        have hc : continuesClass c = true := hletters c (by simp [hletters'])
        rw [isLonger, List.cons_append, List.head?_cons, Option.any_some, hc] at hrest
        cases hrest

section New

variable {mark' : Char} {id : List Char} (hmark' : continuesClass mark' = false)
include hmark'

omit hletters in
/-- What is replaced does not change whether the text continues a name before it. -/
theorem isLonger_replaceName (text : List Char) :
    isLonger (replaceName (mark :: letters) (mark' :: id) text) = isLonger text := by
  have hname : mark :: letters ≠ [] := List.cons_ne_nil _ _
  have hhead {c : Char} {cs : List Char} (hc : continuesClass c = false) :
      isLonger (c :: cs) = false := hc
  induction text using occurrence_induction hname with
  | nil => rw [replaceName_nil]
  | occurrence rest _ =>
    cases hlonger : isLonger rest with
    | false =>
      rw [replaceName_name_append hname hlonger, List.cons_append, List.cons_append, hhead hmark,
        hhead hmark']
    | true =>
      rw [replaceName_name_append_of_isLonger hname hlonger, List.cons_append, List.cons_append,
        hhead hmark, hhead hmark]
  | other c cs h _ =>
    rw [replaceName_cons_of_not_isPrefix h]
    rfl

omit hletters in
/-- What begins a text after replacing and has no mark began it before. -/
theorem isPrefix_of_isPrefix_replaceName {u text : List Char}
    (hu : ∀ c ∈ u, continuesClass c = true)
    (h : u <+: replaceName (mark :: letters) (mark' :: id) text) : u <+: text := by
  have hname : mark :: letters ≠ [] := List.cons_ne_nil _ _
  have hnil {u cs : List Char} {c : Char} (hu : ∀ c ∈ u, continuesClass c = true)
      (hc : continuesClass c = false) (h : u <+: c :: cs) : u = [] := by
    cases u with
    | nil => rfl
    | cons d u =>
      obtain ⟨rfl, -⟩ := List.cons_prefix_cons.1 h
      rw [hu d List.mem_cons_self] at hc
      cases hc
  induction text using occurrence_induction hname generalizing u with
  | nil => rwa [replaceName_nil] at h
  | occurrence rest _ =>
    have hempty : u = [] := by
      cases hlonger : isLonger rest with
      | false =>
        rw [replaceName_name_append hname hlonger] at h
        exact hnil hu hmark' h
      | true =>
        rw [replaceName_name_append_of_isLonger hname hlonger] at h
        exact hnil hu hmark h
    rw [hempty]
    exact List.nil_prefix
  | other c cs hc ih =>
    rw [replaceName_cons_of_not_isPrefix hc] at h
    cases u with
    | nil => exact List.nil_prefix
    | cons d u =>
      obtain ⟨rfl, htail⟩ := List.cons_prefix_cons.1 h
      exact List.cons_prefix_cons.2 ⟨rfl, ih (List.forall_mem_cons.1 hu).2 htail⟩

/-- **No bare occurrence is left**, nor does one begin where the new name meets its neighbors. -/
theorem not_isBare_replaceName (hnew : ¬ mark :: letters <:+: mark' :: id) (text : List Char) :
    ∀ u v, ¬ IsBare (mark :: letters)
      (replaceName (mark :: letters) (mark' :: id) text) u v := by
  have hname : mark :: letters ≠ [] := List.cons_ne_nil _ _
  have hcontinues : ∀ text, isLonger (replaceName (mark :: letters) (mark' :: id) text) =
      isLonger text := isLonger_replaceName hmark hmark'
  induction text using occurrence_induction hname with
  | nil =>
    rintro u v ⟨h, -⟩
    rw [replaceName_nil] at h
    cases u <;> cases h
  | occurrence rest ih =>
    intro u v h
    cases hlonger : isLonger rest with
    | false =>
      rw [replaceName_name_append hname hlonger] at h
      obtain ⟨u', -, hrest⟩ := isBare_append_of_lacks hletters hnew
        (by rw [hcontinues, hlonger]) h
      exact ih u' v hrest
    | true =>
      rw [replaceName_name_append_of_isLonger hname hlonger,
        isBare_name_append hmark hletters] at h
      rcases h with ⟨-, -, hend⟩ | ⟨u', -, h⟩
      · rw [endsName_iff, hcontinues, hlonger] at hend
        cases hend
      · exact ih u' v h
  | other c cs hc ih =>
    intro u v h
    have hc' : ¬ mark :: letters <+:
        c :: replaceName (mark :: letters) (mark' :: id) cs := by
      intro hprefix
      obtain ⟨rfl, htail⟩ := List.cons_prefix_cons.1 hprefix
      exact hc (List.cons_prefix_cons.2
        ⟨rfl, isPrefix_of_isPrefix_replaceName hmark hmark' hletters htail⟩)
    rw [replaceName_cons_of_not_isPrefix hc, isBare_cons_of_not_isPrefix hc'] at h
    obtain ⟨u', -, h⟩ := h
    exact ih u' v h

end New

end Name

/-! ### Scoping -/

/-- **Scoping puts the element into the place of each bare selector, and changes nothing else.**  If
the id does not hold the selector, no bare one is left. -/
theorem scopedTo_fills_bare_places (id css : String) :
    (∃ parts, css.toList = filled buttonSelector.toList parts ∧
      (scopedTo id css).toList = filled ("#" ++ id).toList parts ∧
      ∀ u v, IsBare buttonSelector.toList css.toList u v ↔
        HoleAt buttonSelector.toList parts u v) ∧
    (¬ buttonSelector.toList <:+: id.toList →
      (∀ u v, ¬ IsBare buttonSelector.toList (scopedTo id css).toList u v) ∧
      ∀ id', scopedTo id' (scopedTo id css) = scopedTo id css) := by
  have hname : buttonSelector.toList = '.' :: ['b', 't', 'n'] := by decide
  have hmark : continuesClass '.' = false := by decide
  have hletters : ∀ c ∈ ['b', 't', 'n'], continuesClass c = true := List.all_eq_true.1 (by decide)
  have hid : ("#" ++ id).toList = '#' :: id.toList := by
    have hhash : "#".toList = ['#'] := by decide
    rw [String.toList_append, hhash, List.singleton_append]
  have hscoped (id css : String) : (scopedTo id css).toList =
      replaceName ('.' :: ['b', 't', 'n']) ('#' :: id.toList) css.toList := by
    rw [scopedTo, String.toList_ofList, hname]
  simp only [hscoped, hname, hid]
  refine ⟨exists_parts hmark hletters _ _, fun hlacks => ?_⟩
  have hnew : ¬ '.' :: ['b', 't', 'n'] <:+: '#' :: id.toList := by
    rw [List.infix_cons_iff]
    rintro (h | h)
    · exact absurd (List.cons_prefix_cons.1 h).1 (by decide)
    · exact hlacks h
  have hmark' : continuesClass '#' = false := by decide
  have hnone := not_isBare_replaceName hmark hletters hmark' hnew css.toList
  refine ⟨hnone, fun id' => String.toList_injective ?_⟩
  rw [hscoped, hscoped, replaceName_eq_self hmark hletters hnone]

theorem scopedTo_fills_bare_places_of_two :
    ¬ buttonSelector.toList <:+: "a.b".toList ∧
      (∀ u v, ¬ IsBare buttonSelector.toList (scopedTo "a.b" ".btn.btn-x .btn").toList u v) ∧
      scopedTo "z" (scopedTo "a.b" ".btn.btn-x .btn") = scopedTo "a.b" ".btn.btn-x .btn" := by
  have hid : ¬ buttonSelector.toList <:+: "a.b".toList := by decide
  have h := (scopedTo_fills_bare_places "a.b" ".btn.btn-x .btn").2 hid
  exact ⟨hid, h.1, h.2 "z"⟩

end ButtonStyle.Css

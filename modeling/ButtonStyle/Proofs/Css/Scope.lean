import Mathlib.Data.List.Forall2
import ButtonStyle.Css.Scope
import ButtonStyle.Proofs.Css.Stylesheet

/-!
# Scoping a stylesheet

Replacing a name in a text goes past whatever does not hold the name and ends in a character that
is not of the name (`Passes`).  In a stylesheet that is everything but the selectors, and in each of the
selectors the name stands once, at the front.

Main statement: **scoping a stylesheet is writing it for another selector**
(`scopedTo_stylesheet`), if none of the free texts in it holds the selector.
-/

namespace ButtonStyle

namespace Css

/-! ### Replacing a name -/

section Replace

variable {name new : List Char}

theorem replaceName_cons_of_not_isPrefix {c : Char} {cs : List Char} (h : ¬ name <+: c :: cs) :
    replaceName name new (c :: cs) = c :: replaceName name new cs := by
  rw [replaceName]
  exact if_neg fun hp => h (List.isPrefixOf_iff_prefix.1 hp.2)

/-- Where the name stands, what follows decides. -/
theorem replaceName_append (hname : name ≠ []) (rest : List Char) :
    replaceName name new (name ++ rest) =
      (if isLonger rest then name else new) ++ replaceName name new rest := by
  obtain ⟨c, cs, hcs⟩ := List.exists_cons_of_ne_nil hname
  have hcons : name ++ rest = c :: (cs ++ rest) := by rw [hcs, List.cons_append]
  have hprefix : name.isPrefixOf (name ++ rest) = true :=
    List.isPrefixOf_iff_prefix.2 (List.prefix_append _ _)
  rw [hcons] at hprefix
  rw [hcons, replaceName, if_pos ⟨hname, hprefix⟩, ← hcons, List.drop_left]

/-- Where the name stands, and no longer one, the new name is put. -/
theorem replaceName_name_append (hname : name ≠ []) {rest : List Char}
    (h : isLonger rest = false) :
    replaceName name new (name ++ rest) = new ++ replaceName name new rest := by
  rw [replaceName_append hname, if_neg (by simp [h])]

/-- A text that does not hold the name stays as it is. -/
theorem replaceName_of_lacks {u : List Char} (h : ¬ name <:+: u) : replaceName name new u = u := by
  induction u with
  | nil => rw [replaceName]
  | cons c u ih =>
    rw [replaceName_cons_of_not_isPrefix fun hp => h hp.isInfix,
      ih fun hi => h (hi.trans (List.suffix_cons c u).isInfix)]

/-- Replacing goes past a text, whatever comes after it. -/
def Passes (name new u : List Char) : Prop :=
  ∀ v, replaceName name new (u ++ v) = u ++ replaceName name new v

theorem Passes.append {u v : List Char} (hu : Passes name new u) (hv : Passes name new v) :
    Passes name new (u ++ v) := by
  intro w
  rw [List.append_assoc, hu, hv, List.append_assoc]

theorem Passes.flatMap {α : Type} {f : α → List Char} {as : List α}
    (h : ∀ a ∈ as, Passes name new (f a)) : Passes name new (as.flatMap f) := by
  induction as with
  | nil => exact fun _ => rfl
  | cons a as ih =>
    obtain ⟨ha, has⟩ := List.forall_mem_cons.1 h
    rw [List.flatMap_cons]
    exact ha.append (ih has)

/-- Replacing goes past a text without the name and past what of no name stands behind it. -/
theorem passes_of_lacks {u sep : List Char} (hne : sep ≠ []) (hsep : Separates sep name)
    (h : ¬ name <:+: u) : Passes name new (u ++ sep) := by
  have hname : name ≠ [] := by
    rintro rfl
    exact h List.nil_infix
  have hone {u : List Char} {c : Char} (hc : c ∉ name) (h : ¬ name <:+: u) :
      Passes name new (u ++ [c]) := by
    intro v
    rw [List.append_assoc, List.append_assoc, List.singleton_append, List.singleton_append]
    induction u with
    | nil =>
      refine replaceName_cons_of_not_isPrefix fun hp => ?_
      exact hname (List.prefix_nil.1 (prefix_of_prefix_append_cons (u := []) hc hp))
    | cons d u ih =>
      have hu : ¬ name <:+: u := fun hi => h (hi.trans (List.suffix_cons d u).isInfix)
      rw [List.cons_append, replaceName_cons_of_not_isPrefix, ih hu, List.cons_append]
      exact fun hp => h (prefix_of_prefix_append_cons (u := d :: u) hc hp).isInfix
  obtain ⟨c, sep, rfl⟩ := List.exists_cons_of_ne_nil hne
  obtain ⟨hc, hsep⟩ := List.forall_mem_cons.1 hsep
  have hrest : Passes name new (sep.flatMap fun c => [c]) := by
    refine Passes.flatMap fun c hmem => ?_
    exact hone (u := []) (hsep c hmem) fun hi => hname (List.infix_nil.1 hi)
  rw [List.flatMap_singleton'] at hrest
  have happend := (hone hc h).append hrest
  rwa [List.append_assoc, List.singleton_append] at happend

end Replace

/-! ### What replacing goes past in a stylesheet -/

/-- A text does not hold the selector of all buttons. -/
def Lacks (s : String) : Prop := ¬ buttonSelector.toList <:+: s.toList

section Passes

variable {new : List Char}

theorem passes_append {s sep : String} (h : Lacks s) (hne : sep.toList ≠ [])
    (hsep : Separates sep.toList buttonSelector.toList) :
    Passes buttonSelector.toList new (s ++ sep).toList := by
  rw [String.toList_append]
  exact passes_of_lacks hne hsep h

theorem Declaration.IsComposed.passes {texts : List String} (ht : ∀ t ∈ texts, Lacks t)
    {d : Declaration} (hd : d.IsComposed texts) :
    Passes buttonSelector.toList new d.css.toList := by
  have hproperty : Lacks d.property := not_infix_of_all foreign_buttonSelector.word hd.property
  have hvalue : Lacks d.value := hd.value_lacks foreign_buttonSelector ht
  have hindent : Passes buttonSelector.toList new ("" ++ "  ").toList :=
    passes_append (by unfold Lacks; decide) (by decide) (by decide)
  have hspelling : d.css = "" ++ "  " ++ (d.property ++ ": ") ++ (d.value ++ ";\n") := by
    simp only [css, String.append_assoc, String.empty_append]
  rw [hspelling, String.toList_append, String.toList_append]
  exact (hindent.append (passes_append hproperty (by decide) (by decide))).append
    (passes_append hvalue (by decide) (by decide))

theorem lacks_animations : Lacks animations := by
  have hselector : buttonSelector.toList = ['.', 'b', 't', 'n'] := by decide
  unfold Lacks animations
  rw [hselector]
  simp only [String.toList_append]
  -- the literals become lists before anything is decided about them
  repeat rw [String.toList_ofList]
  decide +kernel

end Passes

/-! ### Selectors -/

/-- What may follow the selector of all buttons in a longer selector. -/
def IsTail (tail : String) : Prop := isLonger tail.toList = false ∧ Lacks tail

theorem isLonger_append {u : List Char} (hne : u ≠ []) (h : isLonger u = false) (v : List Char) :
    isLonger (u ++ v) = false := by
  cases u with
  | nil => exact absurd rfl hne
  | cons c u => exact h

/-- A selector takes the place of another in front of the same tail. -/
theorem replaceName_selector {base tail sep : String} (ht : IsTail tail) (hne : sep.toList ≠ [])
    (hlonger : isLonger sep.toList = false)
    (hsep : Separates sep.toList buttonSelector.toList) (v : List Char) :
    replaceName buttonSelector.toList base.toList ((buttonSelector ++ tail ++ sep).toList ++ v) =
      (base ++ tail ++ sep).toList ++ replaceName buttonSelector.toList base.toList v := by
  have hrest : isLonger ((tail ++ sep).toList ++ v) = false := by
    rw [String.toList_append, List.append_assoc]
    by_cases hnil : tail.toList = []
    · rw [hnil, List.nil_append]
      exact isLonger_append hne hlonger v
    · exact isLonger_append hnil ht.1 _
  rw [String.append_assoc, String.toList_append, List.append_assoc,
    replaceName_name_append (by decide) hrest, passes_append ht.2 hne hsep]
  simp only [String.toList_append, List.append_assoc]

/-- The selectors of a rule with another selector in front of the same tails. -/
theorem replaceName_selectors {base : String} {tails : List String} (hne : tails ≠ [])
    (h : ∀ tail ∈ tails, IsTail tail) (v : List Char) :
    replaceName buttonSelector.toList base.toList
        ((", ".intercalate (tails.map (buttonSelector ++ ·)) ++ " \x7b\n").toList ++ v) =
      (", ".intercalate (tails.map (base ++ ·)) ++ " \x7b\n").toList ++
        replaceName buttonSelector.toList base.toList v := by
  induction tails with
  | nil => exact absurd rfl hne
  | cons tail tails ih =>
    obtain ⟨ht, hts⟩ := List.forall_mem_cons.1 h
    by_cases hnil : tails = []
    · simp only [hnil, List.map_cons, List.map_nil, String.intercalate_singleton]
      exact replaceName_selector ht (by decide) (by decide) (by decide) v
    · have hcons (base : String) : ", ".intercalate ((tail :: tails).map (base ++ ·)) ++ " \x7b\n" =
          base ++ tail ++ ", " ++ (", ".intercalate (tails.map (base ++ ·)) ++ " \x7b\n") := by
        rw [List.map_cons, String.intercalate_cons_of_ne_nil (by simpa using hnil),
          String.append_assoc]
      rw [hcons, hcons, String.toList_append, List.append_assoc,
        replaceName_selector ht (by decide) (by decide) (by decide), ih hnil hts,
        ← List.append_assoc, ← String.toList_append]

/-! ### Rules and sheets -/

/-- Two rules that differ in the selector alone that stands at the front of each of their
selectors. -/
structure Rule.IsRebased (base base' : String) (r r' : Rule) : Prop where
  comment : r'.comment = r.comment
  selectors : ∃ tails : List String, tails ≠ [] ∧ (∀ tail ∈ tails, IsTail tail) ∧
    r.selectors = tails.map (base ++ ·) ∧ r'.selectors = tails.map (base' ++ ·)
  declarations : r'.declarations = r.declarations

/-- A rule in which the selector of all buttons stands in its selectors only. -/
structure Rule.IsClear (r : Rule) (new : List Char) : Prop where
  comment : ∀ text ∈ r.comment, Lacks text
  declarations : ∀ d ∈ r.declarations, Passes buttonSelector.toList new d.css.toList

theorem Rule.IsClear.passes_commentCss {r : Rule} {new : List Char} (h : r.IsClear new) :
    Passes buttonSelector.toList new r.commentCss.toList := by
  unfold commentCss
  cases hcomment : r.comment with
  | none => exact fun _ => rfl
  | some text =>
    have htext : Lacks text := h.comment text hcomment
    have hstart : Passes buttonSelector.toList new ("" ++ "/* ").toList :=
      passes_append (by unfold Lacks; decide) (by decide) (by decide)
    have hspelling : "/* " ++ text ++ " */\n" = "" ++ "/* " ++ (text ++ " */\n") := by
      simp only [String.append_assoc, String.empty_append]
    show Passes _ _ ("/* " ++ text ++ " */\n").toList
    rw [hspelling, String.toList_append]
    exact hstart.append (passes_append htext (by decide) (by decide))

theorem Rule.IsRebased.replaceName_css {base : String} {r r' : Rule}
    (h : r.IsRebased buttonSelector base r') (hclear : r.IsClear base.toList) (v : List Char) :
    replaceName buttonSelector.toList base.toList ((r.css ++ "\n\n").toList ++ v) =
      (r'.css ++ "\n\n").toList ++ replaceName buttonSelector.toList base.toList v := by
  obtain ⟨tails, hne, htails, hselectors, hselectors'⟩ := h.selectors
  have hspelling (r : Rule) : (r.css ++ "\n\n").toList = r.commentCss.toList ++
      ((", ".intercalate r.selectors ++ " \x7b\n").toList ++
        (r.declarations.flatMap (·.css.toList) ++ ("" ++ "\x7d\n\n").toList)) := by
    have hend : "\x7d".toList ++ "\n\n".toList = ("" ++ "\x7d\n\n").toList := by decide
    simp only [css, String.toList_append, String.toList_join, List.flatMap_map,
      List.append_assoc] at hend ⊢
    rw [hend]
  have hcomment : r'.commentCss = r.commentCss := by rw [commentCss, commentCss, h.comment]
  have hbody : Passes buttonSelector.toList base.toList
      (r.declarations.flatMap (·.css.toList) ++ ("" ++ "\x7d\n\n").toList) :=
    (Passes.flatMap hclear.declarations).append
      (passes_append (by unfold Lacks; decide) (by decide) (by decide))
  rw [hspelling, hspelling, hcomment, h.declarations, hselectors, hselectors', List.append_assoc,
    hclear.passes_commentCss, List.append_assoc, replaceName_selectors hne htails, hbody]
  simp only [List.append_assoc]

/-- **Replacing the selector of all buttons in a sheet gives the sheet of the other rules.** -/
theorem replaceName_sheet {base : String} {rules rules' : List Rule}
    (h : List.Forall₂ (Rule.IsRebased buttonSelector base) rules rules')
    (hclear : ∀ r ∈ rules, r.IsClear base.toList) :
    replaceName buttonSelector.toList base.toList (sheet rules).toList = (sheet rules').toList := by
  have hspelling (rules : List Rule) : (sheet rules).toList =
      rules.flatMap (fun r => (r.css ++ "\n\n").toList) ++ animations.toList := by
    rw [sheet, String.toList_append, String.toList_join, List.flatMap_map]
  rw [hspelling, hspelling]
  induction h with
  | nil =>
    rw [List.flatMap_nil, List.nil_append]
    exact replaceName_of_lacks lacks_animations
  | cons hr _ ih =>
    obtain ⟨hr', hrs⟩ := List.forall_mem_cons.1 hclear
    rw [List.flatMap_cons, List.flatMap_cons, List.append_assoc, hr.replaceName_css hr', ih hrs,
      List.append_assoc]

end Css

open Css

/-! ### The rules of a button -/

/-- What follows the selector of all buttons in the selectors of a state. -/
def State.tails (s : State) : List String :=
  let own := s.pseudoClass?.toList ++ (s.forcingClass?.map ("." ++ ·)).toList
  if own.isEmpty then [""] else own

theorem State.selectors_eq (base : String) (s : State) :
    s.selectors base = s.tails.map (base ++ ·) := by
  cases s <;> simp [selectors, tails, pseudoClass?, forcingClass?, String.append_assoc]

theorem State.isTail_of_mem_tails (s : State) : s.tails ≠ [] ∧ ∀ tail ∈ s.tails, IsTail tail := by
  unfold IsTail Lacks
  cases s <;> decide +kernel

namespace Button

variable (b : Button)

theorem isRebased_rules (base base' : String) :
    List.Forall₂ (Rule.IsRebased base base') (b.rules base) (b.rules base') := by
  have hstate (s : State) :
      (b.stateRule base s).IsRebased base base' (b.stateRule base' s) :=
    ⟨rfl, ⟨s.tails, s.isTail_of_mem_tails.1, s.isTail_of_mem_tails.2, s.selectors_eq base,
      s.selectors_eq base'⟩, rfl⟩
  have hrest : (b.restRule base).IsRebased base base' (b.restRule base') :=
    ⟨rfl, ⟨[""], by decide, by unfold IsTail Lacks; decide, by simp [restRule], by simp [restRule]⟩,
      rfl⟩
  have hicon : (b.icon.rule base).IsRebased base base' (b.icon.rule base') :=
    ⟨rfl, ⟨[" svg"], by decide, by unfold IsTail Lacks; decide, rfl, rfl⟩, rfl⟩
  refine .cons hrest (.cons hicon ?_)
  exact List.forall₂_map_left_iff.2 (List.forall₂_map_right_iff.2
    (List.forall₂_same.2 fun s _ => hstate s))

theorem isClear_of_mem_rules (h : ∀ t ∈ b.texts, Lacks t) (base : String) (new : List Char) :
    ∀ r ∈ b.rules base, r.IsClear new := by
  have hcomment : ∀ r ∈ b.rules base, ∀ text ∈ r.comment, Lacks text := by
    refine b.forall_mem_rules (by simp [restRule]) (by simp [Icon.rule]) fun s text htext => ?_
    obtain rfl : "State: " ++ s.title = text := Option.some.inj htext
    unfold Lacks
    cases s <;> decide +kernel
  exact fun r hr => ⟨hcomment r hr, fun d hd => (b.isComposed_of_mem_rules base r hr d hd).passes h⟩

/-- **Scoping a stylesheet is writing it for the element instead of all buttons**: the sheets have
the same animations, and rules that differ in the front of their selectors only. -/
theorem scopedTo_stylesheet (b : Button) (id : String)
    (h : ∀ t ∈ b.texts, ¬ buttonSelector.toList <:+: t.toList) :
    scopedTo id b.stylesheet = b.stylesheetFor ("#" ++ id) ∧
      b.stylesheet = sheet (b.rules buttonSelector) ∧
      b.stylesheetFor ("#" ++ id) = sheet (b.rules ("#" ++ id)) ∧
      List.Forall₂ (Rule.IsRebased buttonSelector ("#" ++ id)) (b.rules buttonSelector)
        (b.rules ("#" ++ id)) := by
  have hid : ("#" ++ id).toList = '#' :: id.toList := by
    have hhash : "#".toList = ['#'] := by decide
    rw [String.toList_append, hhash, List.singleton_append]
  have hrules := b.isRebased_rules buttonSelector ("#" ++ id)
  have hsheet : b.stylesheetFor ("#" ++ id) = sheet (b.rules ("#" ++ id)) :=
    stylesheetFor_eq_sheet hid (by decide) b
  refine ⟨?_, b.stylesheet_eq_sheet, hsheet, hrules⟩
  rw [hsheet, b.stylesheet_eq_sheet, scopedTo, ← hid,
    replaceName_sheet hrules (b.isClear_of_mem_rules h _ _), String.ofList_toList]

/-- An id that reads like the selector is not replaced in turn. -/
theorem scopedTo_stylesheet_of_selector :
    (∀ t ∈ standard.texts, ¬ buttonSelector.toList <:+: t.toList) ∧
      scopedTo buttonSelector standard.stylesheet =
        standard.stylesheetFor ("#" ++ buttonSelector) := by
  have h : ∀ t ∈ standard.texts, ¬ buttonSelector.toList <:+: t.toList := by decide +kernel
  exact ⟨h, (scopedTo_stylesheet standard buttonSelector h).1⟩

end Button

end ButtonStyle

import ButtonStyle.Proofs.Css.Occurrences

/-!
# What follows a selector

Scoping a text that holds the selector somewhere is scoping what stands before it and what stands
after it, and between the two only the next character decides (`scopedTo_append_selector`).

Main statement: **a selector stays if an ASCII letter or digit, a hyphen or an underscore follows,
and goes if a character beyond ASCII does** (`scopedTo_selector_followed`).  In a stylesheet such a
character continues the name of a class as well, so a longer class is taken for the shorter one
(`scopedTo_accented_class`).
-/

namespace ButtonStyle.Css

section Name

variable {mark : Char} {letters : List Char} (hmark : continuesClass mark = false)
  (hletters : ∀ c ∈ letters, continuesClass c = true)
include hmark

/-- A name does not continue the class that ends before it, so what follows it does not matter. -/
theorem isLonger_append_name (u rest : List Char) :
    isLonger (u ++ (mark :: letters ++ rest)) = isLonger u := by
  cases u with
  | nil => exact hmark
  | cons c u => rfl

include hletters

/-- No occurrence begins in a text and ends in the name behind it. -/
theorem isPrefix_of_isPrefix_append_name {c : Char} {cs rest : List Char}
    (h : mark :: letters <+: c :: cs ++ (mark :: letters ++ rest)) :
    mark :: letters <+: c :: cs := by
  obtain ⟨after, hafter⟩ := h
  rcases List.append_eq_append_iff.1 hafter with ⟨front, hfront, -⟩ | ⟨back, hname, hback⟩
  · exact ⟨front, hfront.symm⟩
  · cases back with
    | nil => exact ⟨[], by rw [hname, List.append_nil, List.append_nil]⟩
    | cons d back =>
      -- the second mark would be one of the letters
      obtain ⟨rfl, -⟩ := List.cons.inj hback
      obtain ⟨-, hcs⟩ := List.cons.inj hname
      have hletter := hletters mark (by simp [hcs])
      rw [hmark] at hletter
      cases hletter

/-- **Around an occurrence of a name the two sides are replaced each for itself.** -/
theorem replaceName_append_name (new u rest : List Char) :
    replaceName (mark :: letters) new (u ++ (mark :: letters ++ rest)) =
      replaceName (mark :: letters) new u ++
        ((if isLonger rest then mark :: letters else new) ++
          replaceName (mark :: letters) new rest) := by
  have hname : mark :: letters ≠ [] := List.cons_ne_nil _ _
  induction u using occurrence_induction hname with
  | nil => rw [List.nil_append, replaceName_nil, List.nil_append, replaceName_append hname]
  | occurrence u ih =>
    rw [List.append_assoc, replaceName_append hname, replaceName_append hname, ih,
      isLonger_append_name hmark, List.append_assoc]
  | other c cs h ih =>
    have h' : ¬ mark :: letters <+: c :: (cs ++ (mark :: letters ++ rest)) := fun hp =>
      h (isPrefix_of_isPrefix_append_name hmark hletters hp)
    rw [List.cons_append, replaceName_cons_of_not_isPrefix h', replaceName_cons_of_not_isPrefix h,
      ih, List.cons_append]

end Name

/-- **Around a selector the two sides are scoped each for itself.** -/
theorem scopedTo_append_selector (id u v : String) :
    scopedTo id (u ++ buttonSelector ++ v) =
      scopedTo id u ++ (if isLonger v.toList then buttonSelector else "#" ++ id) ++
        scopedTo id v := by
  have hname : buttonSelector.toList = '.' :: ['b', 't', 'n'] := by decide
  have hmark : continuesClass '.' = false := by decide
  have hletters : ∀ c ∈ ['b', 't', 'n'], continuesClass c = true := List.all_eq_true.1 (by decide)
  have hhash : "#".toList = ['#'] := by decide
  apply String.toList_injective
  simp only [scopedTo, String.toList_append, String.toList_ofList, hname, apply_ite String.toList,
    hhash, List.append_assoc]
  exact replaceName_append_name hmark hletters _ _ _

/-- A character is an ASCII letter or digit, a hyphen or an underscore. -/
def IsAsciiNameChar (c : Char) : Prop :=
  ('a' ≤ c ∧ c ≤ 'z') ∨ ('A' ≤ c ∧ c ≤ 'Z') ∨ ('0' ≤ c ∧ c ≤ '9') ∨ c = '-' ∨ c = '_'

/-- No character beyond ASCII is taken to continue a class. -/
theorem continuesClass_of_not_ascii {c : Char} (h : 127 < c.toNat) : continuesClass c = false := by
  rw [Bool.eq_false_iff]
  intro hc
  have hle {d : Char} (hd : d.toNat ≤ 127) : ¬ c ≤ d := by
    rw [Char.le_def, UInt32.le_iff_toNat_le]
    exact fun hcd => absurd (Nat.le_trans hcd hd) (Nat.not_le.2 h)
  rcases (continuesClass_iff c).1 hc with ⟨-, hz⟩ | ⟨-, hz⟩ | ⟨-, hz⟩ | rfl | rfl
  · exact hle (by decide) hz
  · exact hle (by decide) hz
  · exact hle (by decide) hz
  · exact absurd h (by decide)
  · exact absurd h (by decide)

/-- **A selector stays if an ASCII letter or digit, a hyphen or an underscore follows, and the
element takes its place if a character beyond ASCII does.** -/
theorem scopedTo_selector_followed (id u v : String) (c : Char) :
    (IsAsciiNameChar c →
      scopedTo id (u ++ buttonSelector ++ (String.singleton c ++ v)) =
        scopedTo id u ++ buttonSelector ++ scopedTo id (String.singleton c ++ v)) ∧
    (127 < c.toNat →
      scopedTo id (u ++ buttonSelector ++ (String.singleton c ++ v)) =
        scopedTo id u ++ ("#" ++ id) ++ scopedTo id (String.singleton c ++ v)) := by
  have hlonger : isLonger (String.singleton c ++ v).toList = continuesClass c := by
    rw [String.toList_append, String.toList_singleton]
    rfl
  rw [scopedTo_append_selector, hlonger]
  constructor
  · intro hc
    rw [if_pos ((continuesClass_iff c).2 hc)]
  · intro hc
    rw [continuesClass_of_not_ascii hc, if_neg Bool.false_ne_true]

theorem scopedTo_selector_followed_by_accent :
    IsAsciiNameChar 'x' ∧ 127 < 'é'.toNat ∧
      scopedTo "demo" (".btn, " ++ buttonSelector ++ (String.singleton 'x' ++ "y")) =
        scopedTo "demo" ".btn, " ++ buttonSelector ++
          scopedTo "demo" (String.singleton 'x' ++ "y") ∧
      scopedTo "demo" (".btn, " ++ buttonSelector ++ (String.singleton 'é' ++ "y")) =
        scopedTo "demo" ".btn, " ++ ("#" ++ "demo") ++
          scopedTo "demo" (String.singleton 'é' ++ "y") := by
  have hx : IsAsciiNameChar 'x' := .inl (by decide)
  have haccent : 127 < 'é'.toNat := by decide
  exact ⟨hx, haccent, (scopedTo_selector_followed "demo" ".btn, " "y" 'x').1 hx,
    (scopedTo_selector_followed "demo" ".btn, " "y" 'é').2 haccent⟩

/-- The name of a class that goes on beyond ASCII is taken for the name that it begins with. -/
theorem scopedTo_accented_class :
    scopedTo "demo" ".btné \x7b\x7d" = "#demoé \x7b\x7d" ∧
      scopedTo "demo" ".btné \x7b\x7d" ≠ ".btné \x7b\x7d" := by
  have hscoped : scopedTo "demo" ".btné \x7b\x7d" = "#demoé \x7b\x7d" := by
    decide +kernel
  rw [hscoped]
  exact ⟨rfl, by decide⟩

end ButtonStyle.Css

import Mathlib.Data.List.Chain
import ButtonStyle.Proofs.ClassList.Reading

/-!
# The spaces of a class list

Between the classes of a list stand single spaces, and there are no other blanks in it.  Main
statement: **a class list is cut into its classes and put together from them again**
(`classList_spaced`), whatever blanks there are in the texts of the button.
-/

namespace ButtonStyle

open Text ClassName

/-- Nothing but single spaces between words: there are no other blanks in the text, none at its ends,
and no two spaces beside each other. -/
structure Text.IsSpaced (s : String) : Prop where
  onlySpaces : ∀ c ∈ s.toList, isBlank c = true → c = ' '
  front : ∀ c ∈ s.toList.head?, isBlank c = false
  back : ∀ c ∈ s.toList.getLast?, isBlank c = false
  single : s.toList.IsChain fun c d => ¬ (c = ' ' ∧ d = ' ')

namespace ClassName

variable {c s : String}

theorem ne_space_of_isClass (h : IsClass c) {d : Char} (hd : d ∈ c.toList) : d ≠ ' ' := by
  rintro rfl
  exact absurd (h.2 ' ' hd) (by decide)

theorem isSpaced_of_isClass (h : IsClass c) : IsSpaced c where
  onlySpaces d hd hblank := by
    rw [h.2 d hd] at hblank
    cases hblank
  front d hd := h.2 d (List.mem_of_mem_head? hd)
  back d hd := h.2 d (List.mem_of_mem_getLast? hd)
  single := by
    refine (List.isChain_isInfix c.toList).imp fun d e hpair hspaces => ?_
    exact ne_space_of_isClass h (hpair.subset List.mem_cons_self) hspaces.1

/-- A class before a text with single spaces, and a space between them. -/
theorem isSpaced_append (hc : IsClass c) (hs : IsSpaced s) (hne : s ≠ "") :
    IsSpaced (c ++ " " ++ s) := by
  have hword := isSpaced_of_isClass hc
  have hc' : c.toList ≠ [] := by simpa using hc.1
  have hs' : s.toList ≠ [] := by simpa using hne
  have hlist : (c ++ " " ++ s).toList = c.toList ++ ' ' :: s.toList := by simp
  constructor
  case onlySpaces =>
    intro d hd hblank
    rw [hlist, List.mem_append, List.mem_cons] at hd
    rcases hd with hd | rfl | hd
    · exact hword.onlySpaces d hd hblank
    · rfl
    · exact hs.onlySpaces d hd hblank
  case front =>
    rw [hlist, List.head?_append_of_ne_nil _ hc']
    exact hword.front
  case back =>
    rw [hlist, List.getLast?_append_of_ne_nil _ (List.cons_ne_nil _ _),
      List.getLast?_cons_of_ne_nil hs']
    exact hs.back
  case single =>
    have hspace : isBlank ' ' = true := by decide
    rw [hlist]
    refine hword.single.append (hs.single.cons ?_) ?_
    · rintro d hd ⟨-, rfl⟩
      rw [hs.front ' ' hd] at hspace
      cases hspace
    · rintro d hd e - ⟨rfl, -⟩
      rw [hword.back ' ' hd] at hspace
      cases hspace

theorem intercalate_ne_empty {cs : List String} (h : AreClasses cs) (hne : cs ≠ []) :
    " ".intercalate cs ≠ "" := by
  obtain ⟨c, cs, rfl⟩ := List.exists_cons_of_ne_nil hne
  have hc := (areClasses_cons.1 h).1.1
  by_cases hnil : cs = []
  · rwa [hnil, String.intercalate_singleton]
  · rw [String.intercalate_cons_of_ne_nil hnil]
    simp [hc]

/-- Classes with single spaces between them. -/
theorem isSpaced_intercalate {cs : List String} (h : AreClasses cs) :
    IsSpaced (" ".intercalate cs) := by
  induction cs with
  | nil => exact ⟨nofun, nofun, nofun, .nil⟩
  | cons c cs ih =>
    obtain ⟨hc, hcs⟩ := areClasses_cons.1 h
    by_cases hnil : cs = []
    · rw [hnil, String.intercalate_singleton]
      exact isSpaced_of_isClass hc
    · rw [String.intercalate_cons_of_ne_nil hnil]
      exact isSpaced_append hc (ih hcs) (intercalate_ne_empty hcs hnil)

end ClassName

/-- **A class list is cut into its classes and put together from them again**, with single spaces
between them. -/
theorem Button.classList_spaced (b : Button) :
    words b.classList = b.classes ∧ (∀ c ∈ b.classes, c ≠ "") ∧
      " ".intercalate (words b.classList) = b.classList ∧ IsSpaced b.classList := by
  have hclasses := b.areClasses_classes
  refine ⟨b.words_classList, fun c hc => (hclasses c hc).1, ?_, isSpaced_intercalate hclasses⟩
  rw [b.words_classList, classList]

end ButtonStyle

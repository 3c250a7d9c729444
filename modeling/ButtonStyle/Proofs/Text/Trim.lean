import Mathlib.Data.List.DropRight
import ButtonStyle.Text.Blank

/-!
# Blanks at the ends of a text

Blanks are the characters of Unicode's white space (`isBlank_iff`).  What a text is without them at
its ends (`TrimsTo`) is told by what is cut off and by what stands at the ends of the rest; `trim`
gives this rest and nothing else (`trimsTo_iff`).  Blanks put around a text make no difference
(`trimChars_append`), and blanks between other characters are not cut off
(`mem_trimChars_of_between`).
-/

namespace ButtonStyle.Text

/-! ### White space -/

/-- The characters that have the Unicode property `White_Space`. -/
def whiteSpace : List Char :=
  ['\t', '\n', '\u000b', '\u000c', '\r', ' ', '\u0085', '\u00a0', '\u1680', '\u2000', '\u2001',
    '\u2002', '\u2003', '\u2004', '\u2005', '\u2006', '\u2007', '\u2008', '\u2009', '\u200a',
    '\u2028', '\u2029', '\u202f', '\u205f', '\u3000']

theorem isBlank_iff {c : Char} : isBlank c = true ↔ c ∈ whiteSpace := by
  unfold isBlank whiteSpace
  simp only [Bool.or_eq_true, Bool.and_eq_true, decide_eq_true_eq, beq_iff_eq, List.mem_cons,
    List.not_mem_nil, or_false, ← Char.toNat_inj, Char.reduceToNat]
  omega

theorem isBlank_eq_false_iff {c : Char} : isBlank c = false ↔ c ∉ whiteSpace := by
  rw [← isBlank_iff, Bool.not_eq_true]

/-- There is nothing but white space in a text. -/
def AllBlank (s : String) : Prop := ∀ c ∈ s.toList, c ∈ whiteSpace

instance (s : String) : Decidable (AllBlank s) := List.decidableBAll _ s.toList

theorem allBlank_iff {s : String} : AllBlank s ↔ ∀ c ∈ s.toList, isBlank c = true := by
  simp only [AllBlank, isBlank_iff]

theorem not_allBlank_iff {s : String} : ¬ AllBlank s ↔ ∃ c ∈ s.toList, isBlank c = false := by
  simp [allBlank_iff]

/-- `t` is `s` without the white space at both ends. -/
structure TrimsTo (s t : String) : Prop where
  /-- Only white space is cut off. -/
  cut : ∃ u v, AllBlank u ∧ AllBlank v ∧ s = u ++ t ++ v
  /-- What is left does not begin with white space. -/
  first : ∀ c ∈ t.toList.head?, c ∉ whiteSpace
  /-- What is left does not end with white space. -/
  last : ∀ c ∈ t.toList.getLast?, c ∉ whiteSpace

/-! ### Lists of characters -/

theorem trimChars_eq (cs : List Char) :
    trimChars cs = (cs.dropWhile isBlank).rdropWhile isBlank := rfl

theorem rdropWhile_cons_of_not_isBlank {c : Char} (hc : isBlank c = false) (cs : List Char) :
    (c :: cs).rdropWhile isBlank = c :: cs.rdropWhile isBlank := by
  rw [List.rdropWhile, List.rdropWhile, List.reverse_cons, List.dropWhile_append]
  split
  · next h => simp_all
  · simp

theorem rdropWhile_cons_of_isBlank {c : Char} (hc : isBlank c = true) (cs : List Char) :
    (c :: cs).rdropWhile isBlank =
      if cs.dropWhile isBlank = [] then [] else c :: cs.rdropWhile isBlank := by
  rw [List.rdropWhile, List.rdropWhile, List.reverse_cons, List.dropWhile_append]
  simp only [List.isEmpty_iff, List.dropWhile_eq_nil_iff, List.mem_reverse]
  split <;> simp [hc]

theorem dropWhile_rdropWhile (cs : List Char) :
    (cs.rdropWhile isBlank).dropWhile isBlank = trimChars cs := by
  rw [trimChars_eq]
  induction cs with
  | nil => rfl
  | cons c cs ih =>
    cases hc : isBlank c with
    | false => simp [rdropWhile_cons_of_not_isBlank, hc]
    | true =>
      rw [rdropWhile_cons_of_isBlank hc, List.dropWhile_cons_of_pos hc, ← ih]
      split
      · next h => rw [ih, h]; rfl
      · exact List.dropWhile_cons_of_pos hc

/-- Nothing but blanks is cut off. -/
theorem exists_eq_append_trimChars (cs : List Char) :
    ∃ us vs, (∀ c ∈ us, isBlank c = true) ∧ (∀ c ∈ vs, isBlank c = true) ∧
      cs = us ++ trimChars cs ++ vs := by
  refine ⟨cs.takeWhile isBlank, (cs.dropWhile isBlank).rtakeWhile isBlank,
    fun c hc => List.mem_takeWhile_imp hc, fun c hc => List.mem_rtakeWhile_imp hc, ?_⟩
  rw [trimChars_eq, List.append_assoc, List.rdropWhile_append_rtakeWhile,
    List.takeWhile_append_dropWhile]

/-- Blanks around a text do not count. -/
theorem trimChars_append {us vs : List Char} (hus : ∀ c ∈ us, isBlank c = true)
    (hvs : ∀ c ∈ vs, isBlank c = true) (cs : List Char) :
    trimChars (us ++ cs ++ vs) = trimChars cs := by
  have hback : (cs ++ vs).rdropWhile isBlank = cs.rdropWhile isBlank := by
    rw [List.rdropWhile, List.reverse_append, List.dropWhile_append_of_pos, List.rdropWhile]
    intro c hc
    exact hvs c (List.mem_reverse.1 hc)
  calc trimChars (us ++ cs ++ vs)
      = trimChars (cs ++ vs) := by
        rw [trimChars_eq, List.append_assoc, List.dropWhile_append_of_pos hus, trimChars_eq]
    _ = trimChars cs := by
        rw [← dropWhile_rdropWhile, hback, dropWhile_rdropWhile]

theorem trimChars_eq_self {cs : List Char} (hfirst : ∀ c ∈ cs.head?, isBlank c = false)
    (hlast : ∀ c ∈ cs.getLast?, isBlank c = false) : trimChars cs = cs := by
  have hfront : cs.dropWhile isBlank = cs := by
    cases cs with
    | nil => rfl
    | cons c cs =>
      have hc : isBlank c = false := hfirst c rfl
      exact List.dropWhile_cons_of_neg (by simp [hc])
  have hback : cs.rdropWhile isBlank = cs := by
    rw [List.rdropWhile_eq_self_iff]
    intro hne
    simp [hlast _ (List.getLast?_eq_some_getLast hne)]
  rw [trimChars_eq, hfront, hback]

theorem not_isBlank_of_head? {cs : List Char} {c : Char} (h : c ∈ (trimChars cs).head?) :
    isBlank c = false := by
  rw [← dropWhile_rdropWhile] at h
  have hhead := List.head?_dropWhile_not isBlank (cs.rdropWhile isBlank)
  rw [h] at hhead
  exact hhead

theorem not_isBlank_of_getLast? {cs : List Char} {c : Char} (h : c ∈ (trimChars cs).getLast?) :
    isBlank c = false := by
  obtain ⟨hne, hc⟩ := List.mem_getLast?_eq_getLast h
  rw [hc, Bool.eq_false_iff]
  exact List.rdropWhile_last_not isBlank (cs.dropWhile isBlank) hne

/-- What is no blank is not cut off. -/
theorem mem_trimChars {c : Char} (hc : isBlank c = false) {cs : List Char} (h : c ∈ cs) :
    c ∈ trimChars cs := by
  obtain ⟨us, vs, hus, hvs, hcs⟩ := exists_eq_append_trimChars cs
  rw [hcs, List.mem_append, List.mem_append] at h
  rcases h with (h | h) | h
  · rw [hus c h] at hc
    cases hc
  · exact h
  · rw [hvs c h] at hc
    cases hc

theorem dropWhile_ne_nil {c : Char} (hc : isBlank c = false) {cs : List Char} (h : c ∈ cs) :
    cs.dropWhile isBlank ≠ [] := by
  intro hnil
  rw [List.dropWhile_eq_nil_iff.1 hnil c h] at hc
  cases hc

/-- What stands between characters that are no blanks is not cut off, be it a blank or not. -/
theorem mem_trimChars_of_between {c d e : Char} (hd : isBlank d = false) (he : isBlank e = false)
    {us vs : List Char} (hus : d ∈ us) (hvs : e ∈ vs) : c ∈ trimChars (us ++ c :: vs) := by
  have hfront : us.dropWhile isBlank ≠ [] := dropWhile_ne_nil hd hus
  have hback : vs.reverse.dropWhile isBlank ≠ [] := dropWhile_ne_nil he (List.mem_reverse.2 hvs)
  rw [trimChars, List.dropWhile_append, if_neg (by simpa using hfront), List.reverse_append,
    List.reverse_cons, List.append_assoc, List.dropWhile_append, if_neg (by simpa using hback)]
  simp

/-! ### Texts -/

/-- **Trimming gives the rest between the white space at the ends**, and there is only one. -/
theorem trimsTo_iff {s t : String} : TrimsTo s t ↔ trim s = t := by
  constructor
  · rintro ⟨⟨u, v, hu, hv, rfl⟩, hfirst, hlast⟩
    simp only [← isBlank_eq_false_iff] at hfirst hlast
    rw [trim, String.toList_append, String.toList_append,
      trimChars_append (allBlank_iff.1 hu) (allBlank_iff.1 hv), trimChars_eq_self hfirst hlast,
      String.ofList_toList]
  · rintro rfl
    obtain ⟨us, vs, hus, hvs, hs⟩ := exists_eq_append_trimChars s.toList
    refine ⟨⟨String.ofList us, String.ofList vs, ?_, ?_, ?_⟩, fun c hc => ?_, fun c hc => ?_⟩
    · simpa [allBlank_iff] using hus
    · simpa [allBlank_iff] using hvs
    · apply String.toList_injective
      simpa [trim] using hs
    · rw [trim, String.toList_ofList] at hc
      exact isBlank_eq_false_iff.1 (not_isBlank_of_head? hc)
    · rw [trim, String.toList_ofList] at hc
      exact isBlank_eq_false_iff.1 (not_isBlank_of_getLast? hc)

example : TrimsTo "\u2003a b\u00a0\t" "a b" := trimsTo_iff.2 (by decide)

end ButtonStyle.Text

import ButtonStyle.Proofs.Text.Trim

/-!
# Words of a text

The words of a text with underscores between them are **the text without the blanks at its ends,
each run of blanks within it replaced by one underscore** (`intercalate_words`).  Words with spaces
between them are found again (`words_intercalate`).
-/

namespace ButtonStyle.Text

/-! ### Runs of blanks -/

/-- Each run of blanks replaced by one underscore: of a run only the last blank stands. -/
def squeezed : List Char → List Char
  | [] => []
  | c :: cs =>
    if isBlank c && cs.head?.any isBlank then squeezed cs
    else (if isBlank c then '_' else c) :: squeezed cs

/-- The text without the blanks at both ends, an underscore in place of each run of blanks. -/
def underscored (s : String) : String := String.ofList (squeezed (trimChars s.toList))

theorem squeezed_cons_of_not_isBlank {c : Char} (hc : isBlank c = false) (cs : List Char) :
    squeezed (c :: cs) = c :: squeezed cs := by
  simp [squeezed, hc]

/-- A run of blanks with something after it. -/
theorem squeezed_cons_of_isBlank {c : Char} (hc : isBlank c = true) {cs : List Char}
    (h : cs.dropWhile isBlank ≠ []) :
    squeezed (c :: cs) = '_' :: squeezed (cs.dropWhile isBlank) := by
  induction cs generalizing c with
  | nil => exact absurd rfl h
  | cons d cs ih =>
    cases hd : isBlank d with
    | false => simp [squeezed, hc, hd]
    | true =>
      rw [List.dropWhile_cons_of_pos hd] at h ⊢
      rw [← ih hd h, squeezed]
      simp [hc, hd]

/-! ### Words -/

@[simp] theorem wordsFrom_cons_of_not_isBlank {c : Char} (hc : isBlank c = false)
    (word cs : List Char) : wordsFrom word (c :: cs) = wordsFrom (c :: word) cs := by
  simp [wordsFrom, hc]

theorem wordsFrom_nil_of_all {cs : List Char} (h : ∀ c ∈ cs, isBlank c = true) :
    wordsFrom [] cs = [] := by
  induction cs with
  | nil => rfl
  | cons c cs ih =>
    obtain ⟨hc, hcs⟩ := List.forall_mem_cons.1 h
    rw [wordsFrom, if_pos hc]
    exact ih hcs

theorem wordsFrom_ne_nil {word : List Char} (h : word ≠ []) (cs : List Char) :
    wordsFrom word cs ≠ [] := by
  induction cs generalizing word with
  | nil => simp [wordsFrom, h]
  | cons c cs ih =>
    cases hc : isBlank c with
    | false =>
      rw [wordsFrom_cons_of_not_isBlank hc]
      exact ih (List.cons_ne_nil c word)
    | true => simp [wordsFrom, hc, h]

/-- Blanks before the first word do not count. -/
theorem wordsFrom_dropWhile (cs : List Char) :
    wordsFrom [] (cs.dropWhile isBlank) = wordsFrom [] cs := by
  induction cs with
  | nil => rfl
  | cons c cs ih =>
    cases hc : isBlank c with
    | false => rw [List.dropWhile_cons_of_neg (by simp [hc])]
    | true => rw [List.dropWhile_cons_of_pos hc, ih, wordsFrom, if_pos hc]; rfl

/-- After the letters of a word come the rest of the word, an underscore for the run of blanks, and
so on.  The induction is on the text, once for a word under way and once between words. -/
theorem intercalate_wordsFrom (cs : List Char) :
    ['_'].intercalate (wordsFrom [] cs) = squeezed (trimChars cs) ∧
      ∀ word, word ≠ [] → ['_'].intercalate (wordsFrom word cs) =
        word.reverse ++ squeezed (cs.rdropWhile isBlank) := by
  induction cs with
  | nil => exact ⟨rfl, fun word hword => by simp [wordsFrom, hword, squeezed]⟩
  | cons c cs ih =>
    obtain ⟨hbetween, hwithin⟩ := ih
    cases hc : isBlank c with
    | false =>
      have htrim : trimChars (c :: cs) = c :: cs.rdropWhile isBlank := by
        rw [trimChars_eq, List.dropWhile_cons_of_neg (by simp [hc]),
          rdropWhile_cons_of_not_isBlank hc]
      rw [htrim, rdropWhile_cons_of_not_isBlank hc, squeezed_cons_of_not_isBlank hc]
      refine ⟨?_, fun word hword => ?_⟩
      · rw [wordsFrom_cons_of_not_isBlank hc, hwithin [c] (List.cons_ne_nil _ _)]
        rfl
      · rw [wordsFrom_cons_of_not_isBlank hc, hwithin (c :: word) (List.cons_ne_nil _ _)]
        simp
    | true =>
      refine ⟨?_, fun word hword => ?_⟩
      · rw [trimChars_eq, List.dropWhile_cons_of_pos hc, ← trimChars_eq, ← hbetween, wordsFrom,
          if_pos hc]
        rfl
      · rw [wordsFrom, if_pos hc, if_neg (by simpa using hword), rdropWhile_cons_of_isBlank hc]
        by_cases hcs : cs.dropWhile isBlank = []
        · rw [wordsFrom_nil_of_all (List.dropWhile_eq_nil_iff.1 hcs), if_pos hcs]
          simp [squeezed]
        · obtain ⟨d, ds, hds⟩ := List.exists_cons_of_ne_nil hcs
          have hd : isBlank d = false := by
            simpa [hds] using List.head?_dropWhile_not isBlank cs
          have hwords : wordsFrom [] cs ≠ [] := by
            rw [← wordsFrom_dropWhile, hds, wordsFrom_cons_of_not_isBlank hd]
            exact wordsFrom_ne_nil (List.cons_ne_nil _ _) _
          have hrest : (cs.rdropWhile isBlank).dropWhile isBlank ≠ [] := by
            rw [dropWhile_rdropWhile, trimChars_eq, hds, rdropWhile_cons_of_not_isBlank hd]
            exact List.cons_ne_nil _ _
          rw [if_neg hcs, List.intercalate_cons_of_ne_nil hwords, hbetween,
            squeezed_cons_of_isBlank hc hrest, dropWhile_rdropWhile]
          simp

/-- **The words with underscores between them are the text with underscores for its runs of
blanks.** -/
theorem intercalate_words (s : String) : "_".intercalate (words s) = underscored s := by
  have h := (intercalate_wordsFrom s.toList).1
  apply String.toList_injective
  rw [String.toList_intercalate, underscored, String.toList_ofList, ← h, words, List.map_map]
  simp

example : underscored " 2px  solid\tred " = "2px_solid_red" := by decide

/-! ### Texts without blanks -/

/-- No character of the text is a blank. -/
def IsUnbroken (s : String) : Prop := ∀ c ∈ s.toList, isBlank c = false

instance : DecidablePred IsUnbroken := fun s =>
  decidable_of_iff (s.toList.all (fun c => !isBlank c) = true) (by simp [IsUnbroken])

theorem isUnbroken_append {s t : String} :
    IsUnbroken (s ++ t) ↔ IsUnbroken s ∧ IsUnbroken t := by
  simp only [IsUnbroken, String.toList_append, List.forall_mem_append]

theorem isUnbroken_underscored (s : String) : IsUnbroken (underscored s) := by
  intro c hc
  rw [underscored, String.toList_ofList] at hc
  generalize trimChars s.toList = cs at hc
  induction cs with
  | nil => cases hc
  | cons d cs ih =>
    rw [squeezed] at hc
    split at hc
    · exact ih hc
    · rcases List.mem_cons.1 hc with rfl | hc
      · split
        · decide
        · next hd => simpa using hd
      · exact ih hc

theorem wordsFrom_append {w : List Char} (hw : ∀ c ∈ w, isBlank c = false) (word cs : List Char) :
    wordsFrom word (w ++ cs) = wordsFrom (w.reverse ++ word) cs := by
  induction w generalizing word with
  | nil => rfl
  | cons c w ih =>
    obtain ⟨hc, hw⟩ := List.forall_mem_cons.1 hw
    rw [List.cons_append, wordsFrom_cons_of_not_isBlank hc, ih hw]
    simp

/-- **Words with spaces between them are found again.** -/
theorem words_intercalate {ws : List String} (h : ∀ w ∈ ws, w ≠ "" ∧ IsUnbroken w) :
    words (" ".intercalate ws) = ws := by
  induction ws with
  | nil => rfl
  | cons w ws ih =>
    obtain ⟨⟨hne, hw⟩, hws⟩ := List.forall_mem_cons.1 h
    have hne : w.toList.reverse ≠ [] := by simpa using hne
    by_cases hnil : ws = []
    · rw [hnil, String.intercalate_singleton, words, ← List.append_nil w.toList,
        wordsFrom_append hw, List.append_nil, wordsFrom, if_neg (by simpa using hne)]
      simp
    · have hspace : isBlank ' ' = true := by decide
      have hlist : (w ++ " " ++ " ".intercalate ws).toList =
          w.toList ++ ' ' :: (" ".intercalate ws).toList := by simp
      rw [String.intercalate_cons_of_ne_nil hnil, words, hlist, wordsFrom_append hw,
        List.append_nil, wordsFrom, if_pos hspace, if_neg (by simpa using hne), List.map_cons]
      exact congrArg₂ List.cons (by simp) (ih hws)

/-- A text without blanks stands as it is. -/
theorem underscored_eq_self {s : String} (h : IsUnbroken s) : underscored s = s := by
  rw [← intercalate_words]
  by_cases hs : s = ""
  · rw [hs]
    rfl
  · have hwords : words (" ".intercalate [s]) = [s] :=
      words_intercalate (List.forall_mem_singleton.2 ⟨hs, h⟩)
    rw [String.intercalate_singleton] at hwords
    rw [hwords, String.intercalate_singleton]

end ButtonStyle.Text

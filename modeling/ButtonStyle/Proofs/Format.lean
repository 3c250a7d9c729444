import Mathlib
import ButtonStyle.Format
import ButtonStyle.Proofs.Text.Trim

/-!
# Names of formats

A text is a spelling of a name if it is the name without the white space at its ends, each ASCII
letter being capital or small (`Text.IsSpelling`).  Main statement: **the spellings of its name are
read as a format, and any other text is rejected as it was given** (`parse_reads_spellings`).

White space is that of Unicode, but only ASCII letters have two cases.  So a space of any width may
stand around a name, while a character beyond ASCII that only looks like one of its letters makes it
no name, and so does a space within it.
-/

namespace ButtonStyle

/-! ### The case of ASCII letters -/

namespace Text

/-- `c` is a capital ASCII letter and `d` the same letter in its small form, which stands 32 places
behind. -/
def IsCapitalOf (c d : Char) : Prop := 'A' ≤ c ∧ c ≤ 'Z' ∧ d.toNat = c.toNat + 32

/-- Two characters are the same but for the case of an ASCII letter. -/
def SameLetter (c d : Char) : Prop := c = d ∨ IsCapitalOf c d ∨ IsCapitalOf d c

/-- Two texts are the same, letter by letter, but for the case of ASCII letters. -/
def SameLetters (s t : String) : Prop := List.Forall₂ SameLetter s.toList t.toList

/-- A text is a spelling of a name: without the white space at its ends it is the name, letter by
letter, but for the case of ASCII letters. -/
def IsSpelling (s name : String) : Prop := ∃ t, TrimsTo s t ∧ SameLetters t name

theorem isCapitalOf_iff {c d : Char} :
    IsCapitalOf c d ↔ 65 ≤ c.toNat ∧ c.toNat ≤ 90 ∧ d.toNat = c.toNat + 32 := by
  unfold IsCapitalOf
  rw [Char.le_def, Char.le_def, UInt32.le_iff_toNat_le, UInt32.le_iff_toNat_le]
  rfl

theorem isUpper_iff {c : Char} : c.isUpper = true ↔ 65 ≤ c.toNat ∧ c.toNat ≤ 90 := by
  unfold Char.isUpper
  rw [decide_eq_true_iff, ge_iff_le, UInt32.le_iff_toNat_le, UInt32.le_iff_toNat_le]
  rfl

theorem isLower_iff {c : Char} : c.isLower = true ↔ 97 ≤ c.toNat ∧ c.toNat ≤ 122 := by
  unfold Char.isLower
  rw [Bool.and_eq_true, decide_eq_true_iff, decide_eq_true_iff, ge_iff_le,
    UInt32.le_iff_toNat_le, UInt32.le_iff_toNat_le]
  rfl

theorem isAlpha_iff {c : Char} :
    c.isAlpha = true ↔ (65 ≤ c.toNat ∧ c.toNat ≤ 90) ∨ (97 ≤ c.toNat ∧ c.toNat ≤ 122) := by
  rw [Char.isAlpha, Bool.or_eq_true, isUpper_iff, isLower_iff]

theorem toNat_toLower (c : Char) :
    c.toLower.toNat = if 65 ≤ c.toNat ∧ c.toNat ≤ 90 then c.toNat + 32 else c.toNat := by
  by_cases h : c.isUpper = true
  · have hrange : 65 ≤ c.toNat ∧ c.toNat ≤ 90 := isUpper_iff.1 h
    have hvalid : (c.toNat + 32).isValidChar := by
      unfold Nat.isValidChar
      omega
    rw [Char.toLower_eq_of_isUpper h, Char.toNat_ofNat, if_pos hvalid, if_pos hrange]
  · rw [Char.toLower_eq_of_not_isUpper h, if_neg (mt isUpper_iff.2 h)]

/-- **Characters are the same letter if they are the same in small form.** -/
theorem sameLetter_iff {c d : Char} : SameLetter c d ↔ c.toLower = d.toLower := by
  unfold SameLetter
  rw [isCapitalOf_iff, isCapitalOf_iff, ← Char.toNat_inj, ← Char.toNat_inj, toNat_toLower,
    toNat_toLower]
  split <;> split <;> omega

theorem sameLetters_iff {s t : String} :
    SameLetters s t ↔ s.toList.map Char.toLower = t.toList.map Char.toLower := by
  have hletter : SameLetter = fun c d => c.toLower = d.toLower := by
    funext c d
    exact propext sameLetter_iff
  rw [← List.forall₂_eq_eq_eq, List.forall₂_map_left_iff, List.forall₂_map_right_iff, SameLetters,
    hletter]

instance (s t : String) : Decidable (SameLetters s t) := decidable_of_iff _ sameLetters_iff.symm

theorem isAlpha_eq_false_of_isBlank {c : Char} (h : isBlank c = true) : c.isAlpha = false := by
  rw [Bool.eq_false_iff, Ne, isAlpha_iff]
  unfold isBlank at h
  simp only [Bool.or_eq_true, Bool.and_eq_true, decide_eq_true_eq, beq_iff_eq] at h
  omega

/-- The small form of a character is a blank if and only if the character is one. -/
theorem isBlank_toLower (c : Char) : isBlank c.toLower = isBlank c := by
  rw [Bool.eq_iff_iff]
  unfold isBlank
  simp only [toNat_toLower, Bool.or_eq_true, Bool.and_eq_true, decide_eq_true_eq, beq_iff_eq]
  split <;> omega

theorem trimChars_map_toLower (cs : List Char) :
    trimChars (cs.map Char.toLower) = (trimChars cs).map Char.toLower := by
  have hblank : isBlank ∘ Char.toLower = isBlank := funext isBlank_toLower
  rw [trimChars, trimChars, List.dropWhile_map, hblank, ← List.map_reverse, List.dropWhile_map,
    hblank, List.map_reverse]

end Text

/-! ### Reading a name -/

theorem Named.ofName?_eq_some_iff {α : Type} [Named α] {s : String} {a : α} :
    Named.ofName? s = some a ↔ Named.name a = s := by
  constructor
  · intro h
    unfold Named.ofName? at h
    simpa using List.find?_some h
  · rintro rfl
    exact Named.ofName?_name a

namespace Format

open Text

theorem forall_iff {P : Format → Prop} : (∀ f, P f) ↔ P .css ∧ P .tailwind ∧ P .tokens := by
  constructor
  · intro h
    exact ⟨h .css, h .tailwind, h .tokens⟩
  · rintro ⟨hcss, htailwind, htokens⟩ f
    cases f with
    | css => exact hcss
    | tailwind => exact htailwind
    | tokens => exact htokens

/-- There are only small letters in names. -/
theorem map_toLower_name (f : Format) :
    (Named.name f).toList.map Char.toLower = (Named.name f).toList := by
  cases f <;> decide

theorem isAlpha_of_mem_name {f : Format} {c : Char} (h : c ∈ (Named.name f).toList) :
    c.isAlpha = true := by
  have hall : (Named.name f).toList.all Char.isAlpha = true := by
    cases f <;> decide
  exact List.all_eq_true.1 hall c h

theorem ofString?_eq_some_iff {s : String} {f : Format} :
    ofString? s = some f ↔ (trimChars s.toList).map Char.toLower = (Named.name f).toList := by
  rw [ofString?, Named.ofName?_eq_some_iff, ← String.toList_inj, String.toList_ofList, eq_comm]

/-- **A format is read from the spellings of its name.** -/
theorem isSpelling_name_iff {f : Format} {s : String} :
    IsSpelling s (Named.name f) ↔ ofString? s = some f := by
  unfold IsSpelling
  simp only [trimsTo_iff, exists_eq_left', sameLetters_iff]
  rw [trim, String.toList_ofList, map_toLower_name, ofString?_eq_some_iff]

/-- **Blanks around a text and the case of its ASCII letters are of no importance.** -/
theorem ofString?_append {s t u v : String} (hu : AllBlank u) (hst : SameLetters s t)
    (hv : AllBlank v) : ofString? (u ++ t ++ v) = ofString? s := by
  have hsmall : (trimChars t.toList).map Char.toLower = (trimChars s.toList).map Char.toLower := by
    rw [← trimChars_map_toLower, ← trimChars_map_toLower, sameLetters_iff.1 hst]
  unfold ofString?
  rw [String.toList_append, String.toList_append,
    trimChars_append (allBlank_iff.1 hu) (allBlank_iff.1 hv), hsmall]

/-- **Between the blanks at its ends there are only ASCII letters in a text that names a format.** -/
theorem isAlpha_of_mem_trimChars {s : String} {f : Format} (h : ofString? s = some f) {c : Char}
    (hc : c ∈ trimChars s.toList) : c.isAlpha = true := by
  have hmem : c.toLower ∈ (Named.name f).toList := by
    rw [← ofString?_eq_some_iff.1 h]
    exact List.mem_map_of_mem hc
  rw [← Char.isAlpha_toLower_eq_isAlpha]
  exact isAlpha_of_mem_name hmem

/-! ### Accepted and rejected texts -/

theorem parse_eq_ok_iff {s : String} {f : Format} : parse s = .ok f ↔ ofString? s = some f := by
  unfold parse
  cases ofString? s <;> simp

theorem parse_eq_error_iff {s : String} {e : UnknownFormat} :
    parse s = .error e ↔ e = ⟨s⟩ ∧ ∀ f : Format, ofString? s ≠ some f := by
  unfold parse
  cases ofString? s <;> simp [eq_comm]

/-- What stands between the blanks at the ends and is no ASCII letter is a reason to reject. -/
theorem parse_eq_error_of_mem {s : String} {c : Char} (hc : c ∈ trimChars s.toList)
    (hno : c.isAlpha = false) : parse s = .error ⟨s⟩ := by
  refine parse_eq_error_iff.2 ⟨rfl, fun f hf => ?_⟩
  rw [isAlpha_of_mem_trimChars hf hc] at hno
  cases hno

/-- **The spellings of its name are read as a format, and any other text is rejected as it was
given.**  White space around a text and the case of its ASCII letters are of no importance; a text
with a character beyond ASCII that is no white space, or with white space within, is rejected. -/
theorem parse_reads_spellings (s : String) :
    ((parse s = .ok .css ↔ IsSpelling s "css") ∧
      (parse s = .ok .tailwind ↔ IsSpelling s "tailwind") ∧
      (parse s = .ok .tokens ↔ IsSpelling s "tokens")) ∧
    (∀ e, parse s = .error e ↔ e = ⟨s⟩ ∧
      ¬ IsSpelling s "css" ∧ ¬ IsSpelling s "tailwind" ∧ ¬ IsSpelling s "tokens") ∧
    (∀ u t v f, AllBlank u → SameLetters s t → AllBlank v →
      (parse (u ++ t ++ v) = .ok f ↔ parse s = .ok f)) ∧
    (∀ c ∈ s.toList, 127 < c.toNat → c ∉ whiteSpace → parse s = .error ⟨s⟩) ∧
    ∀ u c v, s = u ++ String.singleton c ++ v → c ∈ whiteSpace → ¬ AllBlank u → ¬ AllBlank v →
      parse s = .error ⟨s⟩ := by
  have hok (f : Format) : parse s = .ok f ↔ IsSpelling s (Named.name f) := by
    rw [parse_eq_ok_iff, isSpelling_name_iff]
  have hno : (∀ f, ofString? s ≠ some f) ↔
      ¬ IsSpelling s "css" ∧ ¬ IsSpelling s "tailwind" ∧ ¬ IsSpelling s "tokens" := by
    simp only [Ne, ← isSpelling_name_iff]
    exact forall_iff
  refine ⟨forall_iff.1 hok, fun e => ?_, fun u t v f hu hst hv => ?_,
    fun c hc hbeyond hwhite => ?_, ?_⟩
  · rw [parse_eq_error_iff, hno]
  · rw [parse_eq_ok_iff, parse_eq_ok_iff, ofString?_append hu hst hv]
  · refine parse_eq_error_of_mem (mem_trimChars (isBlank_eq_false_iff.2 hwhite) hc) ?_
    rw [Bool.eq_false_iff, Ne, isAlpha_iff]
    omega
  · rintro u c v rfl hwhite hu hv
    obtain ⟨d, hdu, hd⟩ := not_allBlank_iff.1 hu
    obtain ⟨e, hev, he⟩ := not_allBlank_iff.1 hv
    refine parse_eq_error_of_mem ?_ (isAlpha_eq_false_of_isBlank (isBlank_iff.2 hwhite))
    rw [String.toList_append, String.toList_append, String.toList_singleton, List.append_assoc]
    exact mem_trimChars_of_between hd he hdu hev

/-- A name between wide spaces, a name with the sign for kelvin in it, and one with a space in it. -/
theorem parse_reads_spellings_of_tokens :
    AllBlank "\u2003" ∧ SameLetters "tokens" "ToKENS" ∧ AllBlank "\n\u00a0" ∧
      parse ("\u2003" ++ "ToKENS" ++ "\n\u00a0") = .ok .tokens ∧
      parse "to\u212Aens" = .error ⟨"to\u212Aens"⟩ ∧
      parse " tok ens" = .error ⟨" tok ens"⟩ := by
  have hfront : AllBlank "\u2003" := by decide
  have hletters : SameLetters "tokens" "ToKENS" := by decide
  have hback : AllBlank "\n\u00a0" := by decide
  have hspelling : IsSpelling "tokens" "tokens" :=
    ⟨"tokens", trimsTo_iff.2 (by decide), by decide⟩
  obtain ⟨⟨-, -, hok⟩, -, haround, -⟩ := parse_reads_spellings "tokens"
  obtain ⟨-, -, -, hbeyond, -⟩ := parse_reads_spellings "to\u212Aens"
  obtain ⟨-, -, -, -, hwithin⟩ := parse_reads_spellings " tok ens"
  refine ⟨hfront, hletters, hback, ?_, ?_, ?_⟩
  · exact (haround _ _ _ .tokens hfront hletters hback).2 (hok.2 hspelling)
  · exact hbeyond '\u212A' (by decide) (by decide) (by decide)
  · exact hwithin " tok" ' ' "ens" (by decide) (by decide) (by decide) (by decide)

end Format

end ButtonStyle

import Mathlib.Tactic.IntervalCases
import ButtonStyle.Json.Basic
import ButtonStyle.Json.Token
import ButtonStyle.Proofs.Digits

/-!
# Properties of tokens

Each token that documents consist of has a text, and reading that text gives the token back and
leaves what follows it (`leading_chars`).  A text that spells tokens, with blanks between them, is
therefore cut into just these tokens (`ofChars_of_spells`), wherever the blanks stand.
-/

namespace ButtonStyle.Json

namespace Token

/-! ### Texts of tokens -/

/-- The text of a token; none for what is only found in faulty texts. -/
def chars : Token → List Char
  | openList => ['[']
  | closeList => [']']
  | openObject => ['\x7b']
  | closeObject => ['\x7d']
  | comma => [',']
  | colon => [':']
  | null => "null".toList
  | flag b => flagChars b
  | number l => l.chars
  | text s => textChars s
  | unpaired | gap _ => []

/-- Whether a token has a text. -/
def isSound : Token → Bool
  | unpaired | gap _ => false
  | _ => true

/-- Whether a character goes on with a number that stands before it. -/
def goesOn (c : Char) : Bool := (Digit.ofChar? c).isSome || c = '.' || c = 'e' || c = 'E'

/-- No number goes on in a text. -/
def Clear (cs : List Char) : Prop := ∀ c ∈ cs.head?, goesOn c = false

/-- A token ends where a text begins. -/
def EndsBefore (t : Token) (cs : List Char) : Prop := ∀ l, t = number l → Clear cs

theorem clear_nil : Clear [] := by simp [Clear]

theorem clear_cons {c : Char} {cs : List Char} : Clear (c :: cs) ↔ goesOn c = false := by
  simp [Clear]

theorem Clear.take {cs : List Char} (h : Clear cs) (n : ℕ) : Clear (cs.take n) := by
  cases n with
  | zero => exact clear_nil
  | succ n => cases cs with
    | nil => exact clear_nil
    | cons c cs => exact h

/-! ### Numbers -/

theorem ofChar?_eq_none_of_clear {c : Char} {cs : List Char} (h : Clear (c :: cs)) :
    Digit.ofChar? c = none := by
  rw [clear_cons] at h
  simp only [goesOn, Bool.or_eq_false_iff] at h
  simpa using h.1.1.1

/-- The digits at the front end where no digit follows. -/
theorem leadingDigits_chars (ds : List Digit) {cs : List Char}
    (h : ∀ c ∈ cs.head?, Digit.ofChar? c = none) :
    leadingDigits (Digits.chars ds ++ cs) = (ds, cs) := by
  induction ds with
  | nil =>
    cases cs with
    | nil => rfl
    | cons c cs => simp [Digits.chars, leadingDigits, h c rfl]
  | cons d ds ih =>
    rw [Digits.chars] at ih
    simp [Digits.chars, leadingDigits, ih]

theorem leadingDigits_of_clear (ds : List Digit) {cs : List Char} (h : Clear cs) :
    leadingDigits (Digits.chars ds ++ cs) = (ds, cs) := by
  refine leadingDigits_chars ds fun c hc => ?_
  cases cs with
  | nil => cases hc
  | cons d cs =>
    obtain rfl : d = c := by simpa using hc
    exact ofChar?_eq_none_of_clear h

theorem head?_exponentChars (e : Option ℤ) : ∀ c ∈ (Literal.exponentChars e).head?, c = 'e' := by
  rcases e with _ | e | e <;> simp [Literal.exponentChars]

theorem exponent_of_clear (negative : Bool) (whole : ℕ) (fraction : List Digit) {cs : List Char}
    (h : Clear cs) :
    exponent negative whole fraction cs = (number ⟨negative, whole, fraction, none⟩, cs) := by
  cases cs with
  | nil => rfl
  | cons c cs =>
    rw [clear_cons] at h
    simp only [goesOn, Bool.or_eq_false_iff, decide_eq_false_iff_not] at h
    simp [exponent, h.1.2, h.2]

theorem exponent_chars (negative : Bool) (whole : ℕ) (fraction : List Digit) (e : Option ℤ)
    {cs : List Char} (h : Clear cs) :
    exponent negative whole fraction (Literal.exponentChars e ++ cs) =
      (number ⟨negative, whole, fraction, e⟩, cs) := by
  have hdigits : ∀ n : ℕ, leadingDigits (Digits.chars (Digits.ofNat n) ++ cs) =
      (Digits.ofNat n, cs) := fun n => leadingDigits_of_clear _ h
  rcases e with _ | n | n
  · exact exponent_of_clear negative whole fraction h
  · obtain ⟨d, ds, hn, -⟩ := Digits.ofNat_eq_cons n
    have hvalue := Digits.value_ofNat n
    have hd := hdigits n
    rw [hn] at hvalue hd
    simp [Literal.exponentChars, exponent, exponentSign, hn, hd, hvalue]
  · obtain ⟨d, ds, hn, -⟩ := Digits.ofNat_eq_cons (n + 1)
    have hvalue := Digits.value_ofNat (n + 1)
    have hd := hdigits (n + 1)
    rw [hn] at hvalue hd
    simp [Literal.exponentChars, exponent, exponentSign, hn, hd, hvalue, Int.negSucc_eq]

/-- The text of the digits after the point, with the point. -/
def fractionChars (ds : List Digit) : List Char :=
  if ds.isEmpty then [] else '.' :: Digits.chars ds

/-- What follows the whole part of a literal. -/
def afterWhole (l : Literal) : List Char :=
  fractionChars l.fraction ++ Literal.exponentChars l.exponent

theorem clear_exponentChars_or (e : Option ℤ) {cs : List Char} (h : Clear cs) :
    ∀ c ∈ (Literal.exponentChars e ++ cs).head?, c ≠ '.' ∧ Digit.ofChar? c = none := by
  intro c hc
  cases he : Literal.exponentChars e with
  | nil =>
    rw [he, List.nil_append] at hc
    cases cs with
    | nil => cases hc
    | cons d cs =>
      obtain rfl : d = c := by simpa using hc
      refine ⟨?_, ofChar?_eq_none_of_clear h⟩
      rintro rfl
      exact absurd (clear_cons.1 h) (by decide)
  | cons d ds =>
    obtain rfl : d = 'e' := head?_exponentChars e d (by rw [he]; rfl)
    rw [he] at hc
    obtain rfl : 'e' = c := by simpa using hc
    decide

theorem fraction_of_not_point (negative : Bool) (whole : ℕ) {cs : List Char}
    (h : ∀ c ∈ cs.head?, c ≠ '.') : fraction negative whole cs = exponent negative whole [] cs := by
  unfold fraction
  split
  · exact absurd rfl (h '.' rfl)
  · rfl

theorem fraction_chars (negative : Bool) (whole : ℕ) (ds : List Digit) (e : Option ℤ)
    {cs : List Char} (h : Clear cs) :
    fraction negative whole (fractionChars ds ++ (Literal.exponentChars e ++ cs)) =
      (number ⟨negative, whole, ds, e⟩, cs) := by
  have hhead := clear_exponentChars_or e h
  cases ds with
  | nil =>
    rw [fractionChars, List.isEmpty_nil, if_pos rfl, List.nil_append,
      fraction_of_not_point negative whole fun c hc => (hhead c hc).1]
    exact exponent_chars negative whole [] e h
  | cons d ds =>
    have hdigits := leadingDigits_chars (d :: ds) fun c hc => (hhead c hc).2
    simp only [fractionChars, List.isEmpty_cons, Bool.false_eq_true, if_false, List.cons_append,
      fraction, hdigits]
    exact exponent_chars negative whole (d :: ds) e h

/-- No digit stands right after the whole part. -/
theorem head?_afterWhole (l : Literal) {cs : List Char} (h : Clear cs) :
    ∀ c ∈ (afterWhole l ++ cs).head?, Digit.ofChar? c = none := by
  intro c hc
  rw [afterWhole, List.append_assoc] at hc
  cases hf : l.fraction with
  | nil =>
    rw [hf] at hc
    exact (clear_exponentChars_or l.exponent h c hc).2
  | cons d ds =>
    rw [hf] at hc
    obtain rfl : '.' = c := by simpa [fractionChars] using hc
    decide

theorem unsigned_chars (l : Literal) {cs : List Char} (h : Clear cs) :
    unsigned l.negative (Digits.chars (Digits.ofNat l.whole) ++ (afterWhole l ++ cs)) =
      (number l, cs) := by
  have hhead := head?_afterWhole l h
  have hdigits := leadingDigits_chars (Digits.ofNat l.whole) hhead
  have hfraction := fraction_chars l.negative l.whole l.fraction l.exponent h
  rw [← List.append_assoc, ← afterWhole] at hfraction
  have hvalue := Digits.value_ofNat l.whole
  unfold unsigned
  rw [hdigits]
  obtain ⟨d, ds, hn, hzero⟩ := Digits.ofNat_eq_cons l.whole
  rw [hn] at hvalue ⊢
  cases ds with
  | nil =>
    have hd : (d : ℕ) = l.whole := by simpa [Digits.value] using hvalue
    simp only [hd]
    exact hfraction
  | cons d' ds =>
    have hd : d ≠ Digit.zero := by simpa using hzero
    simp only [hd, if_false, hvalue]
    exact hfraction

theorem number_chars (l : Literal) :
    l.chars = (if l.negative then ['-'] else []) ++
      (Digits.chars (Digits.ofNat l.whole) ++ afterWhole l) := by
  simp [Literal.chars, afterWhole, fractionChars]

/-! ### Strings -/

theorem hexDigit?_digitChar : ∀ n < 16, hexDigit? (Nat.digitChar n) = some n := by decide

theorem codeUnit?_digitChar {n : ℕ} (h : n < 0x20) :
    codeUnit? '0' '0' (Nat.digitChar (n / 16)) (Nat.digitChar (n % 16)) = some n := by
  have hhigh := hexDigit?_digitChar (n / 16) (by omega)
  have hlow := hexDigit?_digitChar (n % 16) (by omega)
  have hzero : hexDigit? '0' = some 0 := by decide
  simp only [codeUnit?, hzero, hhigh, hlow, Option.bind_eq_bind, Option.bind_some, Option.pure_def,
    Option.some.injEq]
  omega

/-- A character of a string is read back. -/
theorem string_textChar (c : Char) (done cs : List Char) :
    string done none true (textChar c ++ cs) = string (c :: done) none true cs := by
  unfold textChar
  split_ifs with h1 h2 h3 h4 h5 h6 h7 h8
  · subst h1; rfl
  · subst h2; rfl
  · subst h3; rfl
  · subst h4; rfl
  · subst h5; rfl
  · subst h6; rfl
  · subst h7; rfl
  · have hunit := codeUnit?_digitChar h8
    have hlow : isLow c.toNat = false := by
      simp only [isLow, Bool.and_eq_false_iff, decide_eq_false_iff_not]
      omega
    have hhigh : isHigh c.toNat = false := by
      simp only [isHigh, Bool.and_eq_false_iff, decide_eq_false_iff_not]
      omega
    simp [string, hunit, hlow, hhigh, Char.ofNat_toNat]
  · rw [List.singleton_append, string.eq_def]
    split <;> simp_all

theorem string_flatMap (s done cs : List Char) :
    string done none true (s.flatMap textChar ++ cs) = string (s.reverse ++ done) none true cs := by
  induction s generalizing done with
  | nil => rfl
  | cons c s ih =>
    rw [List.flatMap_cons, List.append_assoc, string_textChar, ih, List.reverse_cons,
      List.append_assoc, List.singleton_append]

theorem string_textChars (s : String) (cs : List Char) :
    string [] none true (s.toList.flatMap textChar ++ '"' :: cs) = (text s, cs) := by
  rw [string_flatMap, string.eq_def]
  simp

/-! ### Tokens -/

theorem isSpace_digit : ∀ d : Digit, isSpace d.char = false := by decide

theorem leading_digit (d : Digit) (cs : List Char) :
    leading d.char cs = unsigned false (d.char :: cs) := by
  obtain ⟨n, hn⟩ := d
  interval_cases n <;> rfl

theorem leading_number (l : Literal) {cs : List Char} (h : Clear cs) :
    ∃ c rest, (number l).chars ++ cs = c :: rest ∧ isSpace c = false ∧
      leading c rest = (number l, cs) := by
  have hunsigned := unsigned_chars l h
  obtain ⟨d, ds, hn, -⟩ := Digits.ofNat_eq_cons l.whole
  rw [chars, number_chars, List.append_assoc]
  cases hs : l.negative with
  | true =>
    rw [hs] at hunsigned
    exact ⟨'-', _, rfl, rfl, by rw [List.append_assoc]; exact hunsigned⟩
  | false =>
    rw [hs] at hunsigned
    rw [hn] at hunsigned ⊢
    refine ⟨d.char, _, rfl, isSpace_digit d, ?_⟩
    rw [leading_digit]
    simpa [Digits.chars] using hunsigned

/-- **Each token is read back from its text.** -/
theorem leading_chars {t : Token} (ht : t.isSound = true) {cs : List Char}
    (h : t.EndsBefore cs) :
    ∃ c rest, t.chars ++ cs = c :: rest ∧ isSpace c = false ∧ leading c rest = (t, cs) := by
  cases t with
  | openList | closeList | openObject | closeObject | comma | colon =>
    exact ⟨_, _, rfl, rfl, rfl⟩
  | null => exact ⟨_, _, rfl, rfl, rfl⟩
  | flag b => cases b <;> exact ⟨_, _, rfl, rfl, rfl⟩
  | number l => exact leading_number l (h l rfl)
  | text s =>
    refine ⟨'"', s.toList.flatMap textChar ++ '"' :: cs, by simp [chars, textChars], rfl, ?_⟩
    exact string_textChars s cs
  | unpaired | gap _ => cases ht

/-! ### Texts that spell tokens -/

/-- A text spells tokens: their texts stand in it in order, with blanks between them as long as no
number runs into what follows it. -/
inductive Spells : List Char → List Token → Prop
  | nil : Spells [] []
  | space {c : Char} {cs : List Char} {ts : List Token} (hc : isSpace c = true)
      (h : Spells cs ts) : Spells (c :: cs) ts
  | token {t : Token} {cs : List Char} {ts : List Token} (ht : t.isSound = true)
      (hend : t.EndsBefore cs) (h : Spells cs ts) : Spells (t.chars ++ cs) (t :: ts)

theorem cutFrom_eq (done : List Token) (cs : List Char) :
    cutFrom done cs = done.reverse ++ ofChars cs := by
  unfold ofChars
  induction hn : cs.length using Nat.strong_induction_on generalizing done cs with
  | _ n ih =>
    subst hn
    cases cs with
    | nil => simp [cutFrom]
    | cons c cs =>
      rw [cutFrom, cutFrom.eq_def []]
      by_cases hc : isSpace c
      · simp only [hc, if_true]
        exact ih _ (by simp) done cs rfl
      · simp only [hc, Bool.false_eq_true, if_false]
        have hlt : (leading c cs).2.length < (c :: cs).length :=
          Nat.lt_succ_of_le (length_leading c cs)
        rw [ih _ hlt _ _ rfl, ih _ hlt [(leading c cs).1] _ rfl]
        simp

@[simp] theorem ofChars_nil : ofChars [] = [] := by simp [ofChars, cutFrom]

theorem ofChars_space {c : Char} (h : isSpace c = true) (cs : List Char) :
    ofChars (c :: cs) = ofChars cs := by
  rw [ofChars, cutFrom, if_pos h, ofChars]

theorem ofChars_cons {c : Char} (h : isSpace c = false) (cs : List Char) :
    ofChars (c :: cs) = (leading c cs).1 :: ofChars (leading c cs).2 := by
  rw [ofChars, cutFrom, if_neg (by simp [h]), cutFrom_eq]
  rfl

theorem ofChars_chars {t : Token} (ht : t.isSound = true) {cs : List Char} (h : t.EndsBefore cs) :
    ofChars (t.chars ++ cs) = t :: ofChars cs := by
  obtain ⟨c, rest, hcs, hspace, hlead⟩ := leading_chars ht h
  rw [hcs, ofChars_cons hspace, hlead]

/-- **A text is cut into the tokens that it spells.** -/
theorem ofChars_of_spells {cs : List Char} {ts : List Token} (h : Spells cs ts) :
    ofChars cs = ts := by
  induction h with
  | nil => exact ofChars_nil
  | space hc h ih => rw [ofChars_space hc, ih]
  | token ht hend h ih => rw [ofChars_chars ht hend, ih]

end Token

end ButtonStyle.Json

import Mathlib.Tactic.FieldSimp
import ButtonStyle.Proofs.Json.Spelling
import ButtonStyle.Proofs.Number.Rounding
import ButtonStyle.Proofs.Number.Text

/-!
# The notation of numbers in CSS

A decimal text is written plainly if it has no superfluous zeros, no exponent and no sign before a
zero (`IsPlainDecimal`), and it has an exact value (`exactValue?`).  Main statement: **the CSS text
of a number is a plain decimal, its exact value is rounded to the number and to no other, and so two
numbers have the same text exactly when they are equal by value** (`css_is_plain_decimal`).
-/

namespace ButtonStyle

open Json.Token (leadingDigits leadingDigits_chars)

/-! ### Digits without superfluous zeros -/

/-- The digits of a number other than zero do not begin with a zero. -/
theorem Digits.exists_ofNat_eq_cons {n : ℕ} (hn : n ≠ 0) :
    ∃ d ds, ofNat n = d :: ds ∧ d ≠ Digit.zero := by
  obtain ⟨d, ds, h, hd⟩ := ofNat_eq_cons n
  refine ⟨d, ds, h, ?_⟩
  rcases hd with rfl | hd
  · rintro rfl
    have hvalue := value_ofNat n
    rw [h] at hvalue
    exact hn hvalue.symm
  · exact hd

namespace Number

theorem getLast?_dropTrailingZeros (ds : List Digit) :
    (dropTrailingZeros ds).getLast? ≠ some Digit.zero := by
  intro h
  rw [dropTrailingZeros, List.getLast?_reverse] at h
  have hnot := List.head?_dropWhile_not (· = Digit.zero) ds.reverse
  rw [h] at hnot
  simp at hnot

/-- Digits that do not begin with a zero begin with the same digit without the zeros at their
end. -/
theorem exists_dropTrailingZeros_eq_cons {d : Digit} (hd : d ≠ Digit.zero) (ds : List Digit) :
    ∃ es, dropTrailingZeros (d :: ds) = d :: es := by
  obtain ⟨n, hzeros⟩ := exists_trailing_zeros (d :: ds)
  cases hdrop : dropTrailingZeros (d :: ds) with
  | nil =>
    rw [hdrop, List.nil_append] at hzeros
    exact absurd (List.eq_of_mem_replicate (hzeros ▸ List.mem_cons_self)) hd
  | cons e es =>
    rw [hdrop, List.cons_append] at hzeros
    rw [(List.cons.inj hzeros).1]
    exact ⟨es, rfl⟩

/-- The shortest decimal of a number other than zero begins and ends with a digit other than
zero. -/
theorem exists_digits_shortest_eq (tie : Tie) {x : Number} (hx : x.magnitude ≠ 0) :
    ∃ d ds, (x.shortest tie).digits = d :: ds ∧ d ≠ Digit.zero ∧
      (d :: ds).getLast? ≠ some Digit.zero := by
  obtain ⟨count, k, hback, hshortest⟩ := exists_shortest_eq tie hx
  have hcount : count ≠ 0 := by
    rintro rfl
    rw [readsBack_iff, Nat.zero_mul, decimalMagnitude_zero] at hback
    exact hx hback.symm
  obtain ⟨d, ds, hds, hd⟩ := Digits.exists_ofNat_eq_cons hcount
  obtain ⟨es, hes⟩ := exists_dropTrailingZeros_eq_cons hd ds
  refine ⟨d, es, ?_, hd, ?_⟩
  · rw [hshortest, hds, hes]
  · rw [← hes]
    exact getLast?_dropTrailingZeros _

/-! ### Tidy parts -/

/-- A sign, digits before the point and digits after it, without superfluous zeros and without a
sign before a zero. -/
structure IsTidy (p : Bool × List Digit × List Digit) : Prop where
  whole_ne_nil : p.2.1 ≠ []
  front : p.2.1.head? = some Digit.zero → p.2.1 = [Digit.zero]
  back : p.2.2.getLast? ≠ some Digit.zero
  sign : p.1 = true → ¬ (p.2.1 = [Digit.zero] ∧ p.2.2 = [])

theorem isTidy_split {d : Decimal} {first : Digit} {more : List Digit}
    (hdigits : d.digits = first :: more) (hfirst : first ≠ Digit.zero)
    (hlast : (first :: more).getLast? ≠ some Digit.zero) (negative : Bool) :
    IsTidy (negative, d.split) := by
  unfold Decimal.split
  rw [hdigits]
  split
  · next zeros _ =>
    exact ⟨by simp, fun _ => rfl, by simpa [List.getLast?_append] using hlast, by simp⟩
  · next e _ =>
    split
    · exact ⟨by simp, by simp [hfirst], by simp, by simp [hfirst]⟩
    · next hlength =>
      simp only [List.splitAt_eq]
      refine ⟨by simp, by simp [hfirst], ?_, by simp [hfirst]⟩
      rw [List.getLast?_drop, if_neg (by omega)]
      exact hlast

theorem isTidy_parts (x : Number) : IsTidy x.parts := by
  unfold parts
  split
  · exact ⟨by simp, fun _ => rfl, by simp, nofun⟩
  · next hx =>
    obtain ⟨d, ds, hdigits, hd, hlast⟩ := exists_digits_shortest_eq .up (mt isZero_iff.2 hx)
    exact isTidy_split hdigits hd hlast x.negative

/-! ### The exact value of a text -/

/-- The value of digits with a point somewhere among them. -/
def positional (whole fraction : List Digit) : ℚ :=
  Digits.value whole + Digits.value fraction / 10 ^ fraction.length

/-- The exact value of a text of digits, perhaps with a point and more digits. -/
def unsigned? (cs : List Char) : Option ℚ :=
  match leadingDigits cs with
  | (d :: ds, []) => some (positional (d :: ds) [])
  | (d :: ds, '.' :: cs) =>
    match leadingDigits cs with
    | (fraction, []) => some (positional (d :: ds) fraction)
    | _ => none
  | _ => none

/-- The exact value of a decimal text, which may have a minus sign. -/
def exactValue? (s : String) : Option ℚ :=
  match s.toList with
  | '-' :: cs => (unsigned? cs).map (signed true)
  | cs => (unsigned? cs).map (signed false)

theorem unsigned?_chars {whole : List Digit} (h : whole ≠ []) (fraction : List Digit) :
    unsigned? (Digits.chars whole ++ fractionChars fraction) =
      some (positional whole fraction) := by
  obtain ⟨d, ds, rfl⟩ := List.exists_cons_of_ne_nil h
  have hpoint : Digit.ofChar? '.' = none := by decide
  have hend {ds : List Digit} : leadingDigits (Digits.chars ds) = (ds, []) := by
    rw [← List.append_nil (Digits.chars ds)]
    exact leadingDigits_chars ds nofun
  unfold unsigned? fractionChars
  cases fraction with
  | nil => rw [List.isEmpty_nil, if_pos rfl, List.append_nil, hend]
  | cons e es =>
    have hwhole : leadingDigits (Digits.chars (d :: ds) ++ '.' :: Digits.chars (e :: es)) =
        (d :: ds, '.' :: Digits.chars (e :: es)) :=
      leadingDigits_chars (d :: ds) (by simpa using hpoint)
    rw [List.isEmpty_cons, if_neg Bool.false_ne_true, hwhole]
    simp only [hend]

theorem exactValue?_signedChars {p : Bool × List Digit × List Digit} (h : p.2.1 ≠ []) :
    exactValue? (String.ofList (signedChars p)) = some (signed p.1 (positional p.2.1 p.2.2)) := by
  obtain ⟨negative, whole, fraction⟩ := p
  have hvalue := unsigned?_chars h fraction
  unfold exactValue?
  rw [String.toList_ofList]
  cases negative with
  | true =>
    show (unsigned? (Digits.chars whole ++ fractionChars fraction)).map (signed true) = _
    rw [hvalue]
    rfl
  | false =>
    obtain ⟨d, ds, rfl⟩ := List.exists_cons_of_ne_nil h
    have hminus : ∀ d : Digit, d.char ≠ '-' := by decide
    have hcons : signedChars (false, d :: ds, fraction) =
        d.char :: (Digits.chars ds ++ fractionChars fraction) := rfl
    rw [hcons]
    split
    · next h => exact absurd (List.cons.inj h).1 (hminus d)
    · show (unsigned? (Digits.chars (d :: ds) ++ fractionChars fraction)).map (signed false) = _
      rw [hvalue]
      rfl

/-- The parts of the text of a number have its sign, and its magnitude is nearest to their value. -/
theorem roundsTo_parts (x : Number) :
    RoundsTo (signed x.parts.1 (positional x.parts.2.1 x.parts.2.2)) x := by
  have hone := cast_unitsPerOne_pos
  have hmagnitude := decimalMagnitude_parts x
  have hexponent : -(x.parts.2.2.length : ℤ) = (0 : ℕ) - x.parts.2.2.length := by omega
  rw [hexponent, decimalMagnitude_sub] at hmagnitude
  have hrounds := roundsTo_of_nearestMagnitude (Nat.pow_pos (by omega)) hmagnitude
  have hvalue : signed x.parts.1 (positional x.parts.2.1 x.parts.2.2) =
      signed x.negative (positional x.parts.2.1 x.parts.2.2) := by
    unfold parts
    split
    · -- a zero has no sign in its text, and needs none
      have hdigit : Digits.value [Digit.zero] = 0 := rfl
      have hzero : positional [Digit.zero] [] = 0 := by simp [positional, hdigit]
      simp only [hzero, signed_zero]
    · rfl
  have hnum : positional x.parts.2.1 x.parts.2.2 =
      ((Digits.value x.parts.2.1 * 10 ^ x.parts.2.2.length + Digits.value x.parts.2.2) * 10 ^ 0 *
        unitsPerOne : ℕ) / (10 ^ x.parts.2.2.length : ℕ) / unitsPerOne := by
    unfold positional
    push_cast
    field_simp
  rw [hvalue, hnum]
  exact hrounds

/-! ### Plain decimals -/

/-- A decimal written plainly: perhaps a minus sign, then digits of which the first is no zero
unless it is the only one, then perhaps a point and digits of which the last is no zero. -/
structure IsPlainDecimal (s : String) : Prop where
  form : ∃ p, IsTidy p ∧ s = String.ofList (signedChars p)
  ne_minus_zero : s ≠ "-0"
  no_exponent : 'e' ∉ s.toList ∧ 'E' ∉ s.toList

theorem notMem_signedChars {c : Char} (hc : c ≠ '-' ∧ c ≠ '.' ∧ ∀ d : Digit, d.char ≠ c)
    (p : Bool × List Digit × List Digit) : c ∉ signedChars p := by
  obtain ⟨hminus, hpoint, hdigit⟩ := hc
  have hdigits (ds : List Digit) : c ∉ Digits.chars ds := by
    intro h
    obtain ⟨d, -, hd⟩ := List.mem_map.1 h
    exact hdigit d hd
  simp only [signedChars, fractionChars, List.mem_append, not_or]
  refine ⟨⟨?_, hdigits _⟩, ?_⟩
  · split <;> simp [hminus]
  · split <;> simp [hpoint, hdigits]

theorem isPlainDecimal_css (x : Number) : IsPlainDecimal x.css := by
  have hno {c : Char} (hc : c ≠ '-' ∧ c ≠ '.' ∧ ∀ d : Digit, d.char ≠ c) : c ∉ x.css.toList := by
    rw [css_eq, String.toList_ofList]
    exact notMem_signedChars hc _
  refine ⟨⟨x.parts, x.isTidy_parts, css_eq x⟩, fun h => ?_, ?_⟩
  · have hminus : "-0" = String.ofList (signedChars (true, [Digit.zero], [])) := by decide
    rw [css_eq, hminus] at h
    have hparts := signedChars_injective x.whole_ne_nil (List.cons_ne_nil _ _)
      (String.ofList_inj.1 h)
    have htidy := x.isTidy_parts.sign
    rw [hparts] at htidy
    exact htidy rfl ⟨rfl, rfl⟩
  · exact ⟨hno (by decide), hno (by decide)⟩

/-- **The CSS text of a number is a plain decimal that is rounded to the number**, so that numbers
have the same text exactly when they are equal by value. -/
theorem css_is_plain_decimal (x : Number) :
    IsPlainDecimal x.css ∧
      (∃ q, exactValue? x.css = some q ∧ ∀ y, RoundsTo q y ↔ (x == y) = true) ∧
      ∀ y : Number, x.css = y.css ↔ (x == y) = true := by
  have hrounds := x.roundsTo_parts
  refine ⟨x.isPlainDecimal_css, ⟨_, ?_, fun y => ⟨hrounds.beq, hrounds.congr⟩⟩,
    fun y => css_eq_css_iff⟩
  rw [css_eq]
  exact exactValue?_signedChars x.whole_ne_nil

end Number

end ButtonStyle

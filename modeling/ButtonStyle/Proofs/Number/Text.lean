import Mathlib.Data.List.Basic
import ButtonStyle.Proofs.Number.Compact

/-!
# The CSS text of a number

The CSS text of a number is a sign, digits before the point and digits after it.  It tells all three
apart (`signedChars_injective`), and the digits have the value of the number, so that **numbers have
the same text exactly when they are equal by value** (`css_eq_css_iff`).
-/

namespace ButtonStyle

theorem Digit.char_injective : Function.Injective Digit.char := by
  intro c d h
  have hback := congrArg Digit.ofChar? h
  rw [Digit.ofChar?_char, Digit.ofChar?_char] at hback
  exact Option.some.inj hback

theorem Digits.chars_injective : Function.Injective Digits.chars :=
  List.map_injective_iff.2 Digit.char_injective

namespace Number

/-! ### The parts of a text -/

/-- The sign, the digits before the point and those after it in the text of a number. -/
def parts (x : Number) : Bool × List Digit × List Digit :=
  if x.isZero then (false, [.zero], []) else (x.negative, (x.shortest .up).split)

/-- The digits after the point, with the point if there are any. -/
def fractionChars (fraction : List Digit) : List Char :=
  if fraction.isEmpty then [] else '.' :: Digits.chars fraction

/-- A text with a sign and a point. -/
def signedChars (p : Bool × List Digit × List Digit) : List Char :=
  (if p.1 then ['-'] else []) ++ Digits.chars p.2.1 ++ fractionChars p.2.2

theorem css_eq (x : Number) : x.css = String.ofList (signedChars x.parts) := by
  unfold css parts
  split <;> rfl

/-- The text of a number is made of digits, a sign and a point. -/
theorem all_css {p : Char → Bool} (hdigit : ∀ d : Digit, p d.char = true) (hsign : p '-' = true)
    (hpoint : p '.' = true) (x : Number) : x.css.toList.all p = true := by
  have hchars (ds : List Digit) : (Digits.chars ds).all p = true := by simp [Digits.chars, hdigit]
  rw [css_eq, String.toList_ofList, signedChars, List.all_append, List.all_append, hchars,
    fractionChars]
  split <;> split <;> simp [hsign, hpoint, hchars]

theorem whole_ne_nil (x : Number) : x.parts.2.1 ≠ [] := by
  have hdigits := digits_shortest_ne_nil .up x
  unfold parts Decimal.split
  split
  · exact List.cons_ne_nil _ _
  · dsimp only
    split
    · exact List.cons_ne_nil _ _
    · split
      · exact List.append_ne_nil_of_left_ne_nil hdigits _
      · simp [hdigits]

/-- The digits before the point end where the point stands. -/
theorem takeWhile_wholeChars (whole fraction : List Digit) :
    (Digits.chars whole ++ fractionChars fraction).takeWhile (· ≠ '.') = Digits.chars whole := by
  have hdigit : ∀ d : Digit, decide (d.char ≠ '.') = true := by decide
  have hwhole : ∀ c ∈ Digits.chars whole, decide (c ≠ '.') = true := by
    intro c hc
    obtain ⟨d, -, rfl⟩ := List.mem_map.1 hc
    exact hdigit d
  rw [List.takeWhile_append_of_pos hwhole, fractionChars]
  split <;> simp

/-- The parts of a text can be told apart. -/
theorem signedChars_injective {p q : Bool × List Digit × List Digit} (hp : p.2.1 ≠ [])
    (hq : q.2.1 ≠ []) (h : signedChars p = signedChars q) : p = q := by
  have hminus : ∀ d : Digit, d.char ≠ '-' := by decide
  obtain ⟨m, v, f⟩ := p
  obtain ⟨n, w, g⟩ := q
  obtain ⟨d, v, rfl⟩ := List.exists_cons_of_ne_nil hp
  obtain ⟨e, w, rfl⟩ := List.exists_cons_of_ne_nil hq
  -- a text with a sign begins otherwise than one without
  obtain rfl : m = n := by
    cases m <;> cases n
    · rfl
    · exact absurd (List.cons.inj h).1 (hminus d)
    · exact absurd (List.cons.inj h).1.symm (hminus e)
    · rfl
  have hunsigned : Digits.chars (d :: v) ++ fractionChars f =
      Digits.chars (e :: w) ++ fractionChars g := by
    simp only [signedChars, List.append_assoc] at h
    exact List.append_cancel_left h
  have hwhole := congrArg (List.takeWhile (· ≠ '.')) hunsigned
  rw [takeWhile_wholeChars, takeWhile_wholeChars] at hwhole
  rw [hwhole] at hunsigned
  have hfraction : f = g := by
    have hcancel := List.append_cancel_left hunsigned
    cases f with
    | nil => cases g with
      | nil => rfl
      | cons => cases hcancel
    | cons => cases g with
      | nil => cases hcancel
      | cons => exact Digits.chars_injective (List.cons.inj hcancel).2
  rw [Digits.chars_injective hwhole, hfraction]

/-! ### The value of a text -/

/-- The digits in the text of a number have its magnitude. -/
theorem decimalMagnitude_parts (x : Number) :
    decimalMagnitude
        (Digits.value x.parts.2.1 * 10 ^ x.parts.2.2.length + Digits.value x.parts.2.2)
        (-x.parts.2.2.length) = x.magnitude := by
  unfold parts
  split
  · next hx =>
    have hzero : Digits.value [Digit.zero] = 0 := rfl
    rw [isZero_iff.1 hx]
    simp [hzero, decimalMagnitude_zero]
  · next hx =>
    have hmagnitude := decimalMagnitude_shortest .up (mt isZero_iff.2 hx)
    obtain ⟨zeros, hvalue, hlast⟩ := exists_split_eq (x.shortest .up)
    rw [hvalue, decimalMagnitude_mul_pow, ← hmagnitude, hlast]
    congr 1
    dsimp only
    omega

theorem plain_eq_of_parts_eq {x y : Number} (h : x.parts = y.parts) : x.plain = y.plain := by
  have hm : x.magnitude = y.magnitude := by
    rw [← decimalMagnitude_parts x, h, decimalMagnitude_parts]
  by_cases hx : x.magnitude = 0
  · rw [plain_of_magnitude_eq_zero hx, plain_of_magnitude_eq_zero (hm ▸ hx)]
  · have hy : y.magnitude ≠ 0 := hm ▸ hx
    have hsign : x.negative = y.negative := by
      rw [parts, if_neg (mt isZero_iff.1 hx), parts, if_neg (mt isZero_iff.1 hy)] at h
      exact congrArg Prod.fst h
    rw [plain_of_magnitude_ne_zero hx, plain_of_magnitude_ne_zero hy]
    obtain ⟨xneg, m, hx⟩ := x
    obtain ⟨yneg, n, hy⟩ := y
    obtain rfl : m = n := hm
    obtain rfl : xneg = yneg := hsign
    rfl

@[simp] theorem css_plain (x : Number) : x.plain.css = x.css := by
  by_cases hx : x.isZero = true
  · rw [css, css, if_pos hx, if_pos (x.isZero_plain.trans hx)]
  · rw [plain, if_neg hx]

/-- **Two numbers have the same text exactly when they are equal by value.** -/
theorem css_eq_css_iff {x y : Number} : x.css = y.css ↔ (x == y) = true := by
  rw [← plain_eq_plain_iff]
  constructor
  · intro h
    rw [css_eq, css_eq] at h
    have hparts := signedChars_injective x.whole_ne_nil y.whole_ne_nil (String.ofList_inj.1 h)
    exact plain_eq_of_parts_eq hparts
  · intro h
    rw [← css_plain x, h, css_plain]

end Number

end ButtonStyle

import ButtonStyle.Proofs.Number.ReadBack

/-!
# Numbers in the compact notation

The compact notation writes whole numbers up to `2 ^ 53` as integers, and loses nothing but the sign
of a zero: `plain` is a number without that sign, two numbers are equal by value exactly when they
are plainly the same (`plain_eq_plain_iff`), and **the compact literal of a number is read as the
plain number** (`number?_compactLiteral`).
-/

namespace ButtonStyle.Number

/-! ### Values and signs -/

/-- A number without the sign of a zero. -/
def plain (x : Number) : Number := if x.isZero then zero else x

theorem isZero_iff {x : Number} : x.isZero = true ↔ x.magnitude = 0 := by
  simp [isZero]

theorem plain_of_magnitude_eq_zero {x : Number} (h : x.magnitude = 0) : x.plain = zero :=
  if_pos (isZero_iff.2 h)

theorem plain_of_magnitude_ne_zero {x : Number} (h : x.magnitude ≠ 0) : x.plain = x :=
  if_neg (mt isZero_iff.1 h)

@[simp] theorem plain_plain (x : Number) : x.plain.plain = x.plain := by
  by_cases hx : x.magnitude = 0
  · rw [plain_of_magnitude_eq_zero hx]
    rfl
  · rw [plain_of_magnitude_ne_zero hx, plain_of_magnitude_ne_zero hx]

theorem nearestMagnitude_unitsOf (m : ℕ) : nearestMagnitude (unitsOf m) 1 = m :=
  nearestMagnitude_eq (by omega) (by omega)

/-- Different magnitudes have different values. -/
theorem unitsOf_injective : Function.Injective unitsOf := by
  intro m n h
  rw [← nearestMagnitude_unitsOf m, h, nearestMagnitude_unitsOf n]

theorem unitsOf_eq_zero_iff {m : ℕ} : unitsOf m = 0 ↔ m = 0 := by
  have hzero : unitsOf 0 = 0 := rfl
  exact ⟨fun h => unitsOf_injective (h.trans hzero.symm), fun h => h ▸ hzero⟩

theorem natAbs_units (x : Number) : x.units.natAbs = unitsOf x.magnitude := by
  unfold units
  split <;> simp

theorem units_plain (x : Number) : x.plain.units = x.units := by
  by_cases hx : x.magnitude = 0
  · have h := natAbs_units x
    rw [hx, unitsOf_eq_zero_iff.2 rfl, Int.natAbs_eq_zero] at h
    rw [plain_of_magnitude_eq_zero hx, h]
    rfl
  · rw [plain_of_magnitude_ne_zero hx]

/-- **Two numbers are equal by value exactly when they differ at most in the sign of a zero.** -/
theorem plain_eq_plain_iff {x y : Number} : x.plain = y.plain ↔ (x == y) = true := by
  rw [beq_iff]
  constructor
  · intro h
    rw [← units_plain x, h, units_plain]
  · intro h
    have hm : x.magnitude = y.magnitude := by
      refine unitsOf_injective ?_
      rw [← natAbs_units, h, natAbs_units]
    by_cases hx : x.magnitude = 0
    · rw [plain_of_magnitude_eq_zero hx, plain_of_magnitude_eq_zero (hm ▸ hx)]
    · rw [plain_of_magnitude_ne_zero hx, plain_of_magnitude_ne_zero (hm ▸ hx)]
      have hpos : unitsOf y.magnitude ≠ 0 := mt unitsOf_eq_zero_iff.1 (hm ▸ hx)
      obtain ⟨xneg, m, hx⟩ := x
      obtain ⟨yneg, n, hy⟩ := y
      obtain rfl : m = n := hm
      cases xneg <;> cases yneg <;> simp_all [units]

section Plain

variable (x y : Number)

theorem isZero_plain : x.plain.isZero = x.isZero := by
  unfold plain
  split
  · next h => exact h.symm
  · rfl

@[simp] theorem lt_plain_iff : y < x.plain ↔ y < x := by
  rw [lt_iff, lt_iff, units_plain]

@[simp] theorem plain_add_plain : x.plain.add y.plain = x.add y := by
  simp only [add, units_plain]

end Plain

/-! ### The compact literal -/

section CompactLiteral

variable {x : Number}

/-- The literal of a whole number that is not too large. -/
theorem compactLiteral_of_whole {whole : ℕ} (h : unitsOf x.magnitude = whole * unitsPerOne)
    (hle : whole ≤ 2 ^ 53) : x.compactLiteral = ⟨x.negative && whole != 0, whole, [], none⟩ := by
  unfold compactLiteral
  simp only [h, Nat.mul_mod_left, Nat.mul_div_cancel _ unitsPerOne_pos, natPow_eq, true_and,
    if_pos hle]

/-- The literal of every other number. -/
theorem compactLiteral_of_not_whole
    (h : ∀ whole ≤ 2 ^ 53, unitsOf x.magnitude ≠ whole * unitsPerOne) :
    x.compactLiteral = x.literal := by
  have hdiv := Nat.div_add_mod' (unitsOf x.magnitude) unitsPerOne
  unfold compactLiteral
  refine if_neg fun hwhole => h _ (natPow_eq 2 53 ▸ hwhole.2) ?_
  rw [hwhole.1, Nat.add_zero] at hdiv
  exact hdiv.symm

theorem compactLiteral_of_magnitude_eq_zero (h : x.magnitude = 0) :
    x.compactLiteral = ⟨false, 0, [], none⟩ := by
  have hzero : unitsOf x.magnitude = 0 * unitsPerOne := by
    rw [Nat.zero_mul, unitsOf_eq_zero_iff, h]
  rw [compactLiteral_of_whole hzero (Nat.zero_le _), bne_self_eq_false, Bool.and_false]

/-- The compact literal does not tell the two zeros apart. -/
theorem compactLiteral_plain (x : Number) : x.plain.compactLiteral = x.compactLiteral := by
  by_cases hx : x.magnitude = 0
  · have hzero : zero.magnitude = 0 := rfl
    rw [plain_of_magnitude_eq_zero hx, compactLiteral_of_magnitude_eq_zero hx,
      compactLiteral_of_magnitude_eq_zero hzero]
  · rw [plain_of_magnitude_ne_zero hx]

/-- An integer of the value of a number is read as that number. -/
theorem number?_integer {whole : ℕ} (hx : x.magnitude ≠ 0)
    (h : unitsOf x.magnitude = whole * unitsPerOne) :
    Json.Literal.number? ⟨x.negative, whole, [], none⟩ = some x := by
  have hexact := decimalMagnitude_sub whole 0 0
  rw [pow_zero, Nat.mul_one, ← h, nearestMagnitude_unitsOf] at hexact
  refine number?_eq_some rfl hx ?_
  simpa only [List.length_nil, pow_zero, Nat.mul_one, Digits.value_nil, Nat.add_zero,
    Option.getD_none, Nat.cast_zero] using hexact

/-- **The compact literal of a number is read as the number without the sign of a zero.** -/
theorem number?_compactLiteral (x : Number) : x.compactLiteral.number? = some x.plain := by
  by_cases hx : x.magnitude = 0
  · rw [plain_of_magnitude_eq_zero hx, compactLiteral_of_magnitude_eq_zero hx]
    rfl
  · rw [plain_of_magnitude_ne_zero hx]
    by_cases hwhole : ∃ whole ≤ 2 ^ 53, unitsOf x.magnitude = whole * unitsPerOne
    · obtain ⟨whole, hle, h⟩ := hwhole
      have hne : whole ≠ 0 := by
        rintro rfl
        rw [Nat.zero_mul, unitsOf_eq_zero_iff] at h
        exact hx h
      rw [compactLiteral_of_whole h hle, bne_iff_ne.2 hne, Bool.and_true]
      exact number?_integer hx h
    · push Not at hwhole
      rw [compactLiteral_of_not_whole hwhole]
      exact number?_literal x

/-- **A whole number of magnitude at most `2 ^ 53` is written without point and exponent.** -/
theorem isInteger_compactLiteral {n : ℤ} (hx : x.units = n * unitsPerOne)
    (hn : n.natAbs ≤ 2 ^ 53) : x.compactLiteral.isInteger = true := by
  have hunits : unitsOf x.magnitude = n.natAbs * unitsPerOne := by
    rw [← natAbs_units, hx, Int.natAbs_mul, Int.natAbs_natCast]
  rw [compactLiteral_of_whole hunits hn]
  rfl

end CompactLiteral

end ButtonStyle.Number

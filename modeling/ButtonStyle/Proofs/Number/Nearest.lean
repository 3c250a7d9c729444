import Mathlib.Tactic.Ring
import Mathlib.Tactic.Linarith
import ButtonStyle.Number.Shortest

/-!
# Properties of rounding

What the nearest magnitude depends on, and when it is a given one: it depends on the value of a
ratio alone, and a ratio less than half a unit away from a magnitude is taken to that magnitude.

Reading a decimal is then a matter of its `decimalMagnitude`: the exponents that are settled without
looking at the coefficient are settled in the same way (`ofDecimal?_eq_some`).
-/

namespace ButtonStyle.Number

/-! ### Ratios -/

theorem natPow_eq (a n : ℕ) : Nat.pow a n = a ^ n := rfl

theorem binadeSize_eq : binadeSize = 2 ^ 52 := natPow_eq 2 52

theorem unitsPerOne_eq : unitsPerOne = 2 ^ 1074 := by
  unfold unitsPerOne
  generalize 1074 = e
  exact natPow_eq 2 e

theorem unitsPerOne_pos : 0 < unitsPerOne := by
  rw [unitsPerOne_eq]
  exact pow_pos (by omega) _

/-- A ratio less than half away from a whole number is rounded to it. -/
theorem roundRatio_eq {num den k : ℕ} (hl : 2 * (k * den) < 2 * num + den)
    (hu : 2 * num < 2 * (k * den) + den) : roundRatio num den = k := by
  have hmod := Nat.div_add_mod num den
  have hden : 0 < den := by omega
  have hlt := Nat.mod_lt num hden
  rw [Nat.mul_comm] at hmod
  unfold roundRatio
  rcases Nat.lt_or_ge num (k * den) with h | h
  · -- the whole part is one less than `k`
    obtain ⟨j, rfl⟩ : ∃ j, k = j + 1 := Nat.exists_eq_succ_of_ne_zero (by rintro rfl; omega)
    have hj : num / den = j := by
      rw [Nat.div_eq_iff hden]
      rw [Nat.add_mul] at *
      omega
    rw [hj] at hmod ⊢
    rw [Nat.add_mul] at *
    simp only
    rw [if_neg (by omega), if_pos (by omega)]
  · have hk : num / den = k := by
      rw [Nat.div_eq_iff hden]
      omega
    rw [hk] at hmod ⊢
    simp only
    rw [if_pos (by omega)]

theorem roundRatio_mul (num den : ℕ) {c : ℕ} (hc : 0 < c) :
    roundRatio (num * c) (den * c) = roundRatio num den := by
  unfold roundRatio
  simp only [Nat.mul_div_mul_right _ _ hc, Nat.mul_mod_mul_right, ← Nat.mul_assoc,
    Nat.mul_lt_mul_right hc]

theorem nearestMagnitude_mul (num den : ℕ) {c : ℕ} (hc : 0 < c) :
    nearestMagnitude (num * c) (den * c) = nearestMagnitude num den := by
  unfold nearestMagnitude
  simp only [Nat.mul_div_mul_right _ _ hc, Nat.mul_right_comm den c, roundRatio_mul _ _ hc]

/-- **The nearest magnitude depends on the value of a ratio alone.** -/
theorem nearestMagnitude_congr {a b c d : ℕ} (hb : 0 < b) (hd : 0 < d) (h : a * d = c * b) :
    nearestMagnitude a b = nearestMagnitude c d := by
  calc nearestMagnitude a b
      = nearestMagnitude (a * d) (b * d) := (nearestMagnitude_mul a b hd).symm
    _ = nearestMagnitude (c * b) (d * b) := by rw [h, Nat.mul_comm b d]
    _ = nearestMagnitude c d := nearestMagnitude_mul c d hb

@[simp] theorem nearestMagnitude_zero (den : ℕ) : nearestMagnitude 0 den = 0 := by
  rcases Nat.eq_zero_or_pos den with rfl | hden
  · rfl
  · have h : roundRatio 0 den = 0 := roundRatio_eq (by omega) (by omega)
    simp [nearestMagnitude, h]

/-! ### Magnitudes as multiples of a power of two -/

/-- Every magnitude is a whole number `p` of bits of one size, which `s` tells. -/
theorem exists_shift (m : ℕ) :
    ∃ s p, m = s * binadeSize + p ∧ p < 2 * binadeSize ∧ (s = 0 ∨ binadeSize ≤ p) ∧
      unitsOf m = p * 2 ^ s := by
  have hsize : 0 < binadeSize := by rw [binadeSize_eq]; exact Nat.two_pow_pos _
  have hm : binadeSize * (m / binadeSize) + m % binadeSize = m := Nat.div_add_mod m binadeSize
  have hplace : m % binadeSize < binadeSize := Nat.mod_lt _ hsize
  unfold unitsOf
  cases hb : m / binadeSize with
  | zero =>
    refine ⟨0, m % binadeSize, ?_, by omega, Or.inl rfl, by simp⟩
    rw [hb] at hm
    omega
  | succ b =>
    refine ⟨b, binadeSize + m % binadeSize, ?_, by omega, Or.inr (by omega), by simp⟩
    rw [hb, Nat.mul_add, Nat.mul_comm] at hm
    omega

/-- The shift that is chosen for a whole count of units in the binade of `p * 2 ^ s`. -/
theorem log2_sub_eq {q s : ℕ} (hu : q < 2 ^ (53 + s)) (hl : s = 0 ∨ 2 ^ (52 + s) ≤ q) :
    q.log2 - 52 = s := by
  rcases Nat.eq_zero_or_pos q with rfl | hq
  · rcases hl with rfl | hl
    · rfl
    · exact absurd hl (by simp)
  · have h1 : q.log2 < 53 + s := (Nat.log2_lt (by omega)).2 hu
    rcases hl with rfl | hl
    · omega
    · have h2 : 52 + s ≤ q.log2 := (Nat.le_log2 (by omega)).2 hl
      omega

theorem nearestMagnitude_of_shift {num den s p : ℕ} (hs : (num / den).log2 - 52 = s)
    (hl : 2 * (p * 2 ^ s * den) < 2 * num + den) (hu : 2 * num < 2 * (p * 2 ^ s * den) + den) :
    nearestMagnitude num den = s * binadeSize + p := by
  have hle : den ≤ den * 2 ^ s := Nat.le_mul_of_pos_right den (Nat.two_pow_pos s)
  have hp : p * (den * 2 ^ s) = p * 2 ^ s * den := by ring
  have hround : roundRatio num (den * Nat.pow 2 s) = p := by
    rw [natPow_eq]
    exact roundRatio_eq (by omega) (by omega)
  simp only [nearestMagnitude, hs, hround]

/-- **A ratio less than half a unit away from a magnitude is taken to it.** -/
theorem nearestMagnitude_eq {num den m : ℕ} (hl : 2 * (unitsOf m * den) < 2 * num + den)
    (hu : 2 * num < 2 * (unitsOf m * den) + den) : nearestMagnitude num den = m := by
  obtain ⟨s, p, hm, hp, hs, hunits⟩ := exists_shift m
  rw [hunits] at hl hu
  rw [binadeSize_eq] at hp hs
  have hden : 0 < den := by omega
  have hpow : 2 ^ (52 + s) = 2 ^ 52 * 2 ^ s := Nat.pow_add 2 52 s
  have hpow' : 2 ^ (53 + s) = 2 * 2 ^ 52 * 2 ^ s := by rw [← Nat.pow_succ', ← Nat.pow_add]
  have hlt : p * 2 ^ s < 2 ^ (53 + s) := by
    rw [hpow']
    exact (Nat.mul_lt_mul_right (Nat.two_pow_pos s)).2 hp
  rcases Nat.lt_or_ge num (p * 2 ^ s * den) with h | h
  · have hq : num / den + 1 = p * 2 ^ s := by
      obtain ⟨u, hu⟩ : ∃ u, p * 2 ^ s = u + 1 :=
        Nat.exists_eq_succ_of_ne_zero (by intro h0; rw [h0] at h; omega)
      rw [hu] at hl h ⊢
      rw [Nat.add_mul] at hl h
      rw [Nat.add_right_cancel_iff, Nat.div_eq_iff hden]
      omega
    by_cases hlow : s = 0 ∨ 2 ^ 52 < p
    · -- one unit less lies in the same binade
      rw [hm]
      refine nearestMagnitude_of_shift (log2_sub_eq (by omega) ?_) hl hu
      rcases hlow with h0 | hlow
      · exact Or.inl h0
      · refine Or.inr ?_
        have := (Nat.mul_lt_mul_right (Nat.two_pow_pos s)).2 hlow
        omega
    · -- the least magnitude of a binade, and the ratio lies in the binade before
      obtain ⟨t, rfl⟩ : ∃ t, s = t + 1 := Nat.exists_eq_succ_of_ne_zero (by omega)
      obtain rfl : p = 2 ^ 52 := by omega
      have htwice : 2 ^ 52 * 2 ^ (t + 1) = 2 ^ 53 * 2 ^ t := by ring
      have hhalf : 2 ^ (53 + t) = 2 ^ 53 * 2 ^ t := Nat.pow_add 2 53 t
      have hprev : 2 ^ (52 + t) + 2 ^ (52 + t) = 2 ^ (53 + t) := by ring
      have hpos := Nat.two_pow_pos (52 + t)
      rw [htwice] at hl hu hq
      rw [nearestMagnitude_of_shift (log2_sub_eq (by omega) (Or.inr (by omega))) hl hu, hm,
        binadeSize_eq]
      ring
  · have hq : num / den = p * 2 ^ s := by
      rw [Nat.div_eq_iff hden]
      omega
    rw [hm]
    refine nearestMagnitude_of_shift (log2_sub_eq (by omega) ?_) hl hu
    rcases hs with h0 | hs
    · exact Or.inl h0
    · refine Or.inr ?_
      rw [hq, hpow]
      exact Nat.mul_le_mul_right _ hs

/-! ### Decimals -/

/-- The magnitude nearest to `coefficient * 10 ^ exponent`. -/
def decimalMagnitude (coefficient : ℕ) (exponent : ℤ) : ℕ :=
  nearestMagnitude (coefficient * 10 ^ exponent.toNat * unitsPerOne) (10 ^ (-exponent).toNat)

theorem decimalMagnitude_sub (coefficient a b : ℕ) :
    decimalMagnitude coefficient (a - b) =
      nearestMagnitude (coefficient * 10 ^ a * unitsPerOne) (10 ^ b) := by
  unfold decimalMagnitude
  refine nearestMagnitude_congr (Nat.pow_pos (by omega)) (Nat.pow_pos (by omega)) ?_
  have h : ((a : ℤ) - b).toNat + b = a + (-((a : ℤ) - b)).toNat := by omega
  have hpow : 10 ^ ((a : ℤ) - b).toNat * 10 ^ b = 10 ^ a * 10 ^ (-((a : ℤ) - b)).toNat := by
    rw [← Nat.pow_add, ← Nat.pow_add, h]
  calc coefficient * 10 ^ ((a : ℤ) - b).toNat * unitsPerOne * 10 ^ b
      = coefficient * unitsPerOne * (10 ^ ((a : ℤ) - b).toNat * 10 ^ b) := by ring
    _ = coefficient * unitsPerOne * (10 ^ a * 10 ^ (-((a : ℤ) - b)).toNat) := by rw [hpow]
    _ = coefficient * 10 ^ a * unitsPerOne * 10 ^ (-((a : ℤ) - b)).toNat := by ring

/-- Zeros at the end of a coefficient count for the exponent. -/
theorem decimalMagnitude_mul_pow (coefficient zeros : ℕ) (exponent : ℤ) :
    decimalMagnitude (coefficient * 10 ^ zeros) exponent =
      decimalMagnitude coefficient (exponent + zeros) := by
  have h : exponent = (exponent.toNat : ℤ) - (-exponent).toNat := by omega
  have h' : exponent + zeros = ((exponent.toNat + zeros : ℕ) : ℤ) - (-exponent).toNat := by omega
  rw [h', decimalMagnitude_sub, Nat.pow_add, Nat.mul_comm (10 ^ _) (10 ^ zeros), ← Nat.mul_assoc]
  conv_lhs => rw [h]
  exact decimalMagnitude_sub _ _ _

@[simp] theorem decimalMagnitude_zero (exponent : ℤ) : decimalMagnitude 0 exponent = 0 := by
  simp [decimalMagnitude]

/-- No number is as large as a decimal whose exponent is beyond 400. -/
theorem limit_le_decimalMagnitude {coefficient : ℕ} {exponent : ℤ} (hc : 0 < coefficient)
    (he : 400 < exponent) : limit ≤ decimalMagnitude coefficient exponent := by
  have h8 : 2 ^ (3 * exponent.toNat) ≤ 10 ^ exponent.toNat := by
    rw [Nat.pow_mul]
    exact Nat.pow_le_pow_left (by omega) _
  have hbig : 2 ^ (3 * exponent.toNat + 1074) ≤
      coefficient * 10 ^ exponent.toNat * unitsPerOne := by
    calc 2 ^ (3 * exponent.toNat + 1074)
        = 1 * 2 ^ (3 * exponent.toNat) * unitsPerOne := by
          rw [unitsPerOne_eq, pow_add, Nat.one_mul]
      _ ≤ coefficient * 10 ^ exponent.toNat * unitsPerOne :=
        Nat.mul_le_mul_right _ (Nat.mul_le_mul hc h8)
  have hden : (-exponent).toNat = 0 := by omega
  have hpos := Nat.two_pow_pos (3 * exponent.toNat + 1074)
  unfold decimalMagnitude nearestMagnitude
  rw [hden, Nat.pow_zero, Nat.div_one]
  generalize coefficient * 10 ^ exponent.toNat * unitsPerOne = num at *
  have hlog : 3 * exponent.toNat + 1074 ≤ num.log2 := (Nat.le_log2 (by omega)).2 hbig
  calc limit = 2047 * binadeSize := rfl
    _ ≤ (num.log2 - 52) * binadeSize := Nat.mul_le_mul_right _ (by omega)
    _ ≤ _ := Nat.le_add_right _ _

/-- A decimal that is small enough is nearest to zero. -/
theorem decimalMagnitude_of_small {coefficient : ℕ} {exponent : ℤ}
    (he : exponent + coefficient.log2 < -400) : decimalMagnitude coefficient exponent = 0 := by
  obtain ⟨n, hn⟩ : ∃ n : ℕ, (-exponent).toNat = coefficient.log2 + 401 + n :=
    ⟨(-exponent).toNat - (coefficient.log2 + 401), by omega⟩
  have hnum : exponent.toNat = 0 := by omega
  have hlt : coefficient < 2 ^ (coefficient.log2 + 1) := Nat.lt_log2_self
  have h8 : 2 ^ (3 * (coefficient.log2 + 401 + n)) ≤ 10 ^ (coefficient.log2 + 401 + n) := by
    rw [Nat.pow_mul]
    exact Nat.pow_le_pow_left (by omega) _
  have hsmall : 2 * (coefficient * unitsPerOne) < 10 ^ (coefficient.log2 + 401 + n) := by
    calc 2 * (coefficient * unitsPerOne)
        < 2 * (2 ^ (coefficient.log2 + 1) * unitsPerOne) :=
          Nat.mul_lt_mul_of_pos_left
            ((Nat.mul_lt_mul_right unitsPerOne_pos).2 hlt) (by omega)
      _ = 2 ^ (coefficient.log2 + 1076) := by
        rw [unitsPerOne_eq, ← Nat.pow_add, ← Nat.pow_succ']
      _ ≤ 2 ^ (3 * (coefficient.log2 + 401 + n)) := Nat.pow_le_pow_right (by omega) (by omega)
      _ ≤ 10 ^ (coefficient.log2 + 401 + n) := h8
  have hzero : unitsOf 0 = 0 := rfl
  unfold decimalMagnitude
  rw [hnum, hn, Nat.pow_zero, Nat.mul_one]
  refine nearestMagnitude_eq ?_ ?_
  · rw [hzero]
    omega
  · rw [hzero]
    omega

/-- **A decimal is read as a number if its magnitude is the number's.** -/
theorem ofDecimal?_eq_some {x : Number} {coefficient : ℕ} {exponent : ℤ} (hx : x.magnitude ≠ 0)
    (h : decimalMagnitude coefficient exponent = x.magnitude) :
    ofDecimal? x.negative coefficient exponent = some x := by
  have hc : coefficient ≠ 0 := by
    rintro rfl
    rw [decimalMagnitude_zero] at h
    exact hx h.symm
  have hlarge : ¬ 400 < exponent := by
    intro he
    have := limit_le_decimalMagnitude (Nat.pos_of_ne_zero hc) he
    have := x.finite
    omega
  have hsmall : ¬ exponent + coefficient.log2 < -400 := by
    intro he
    rw [decimalMagnitude_of_small he] at h
    exact hx h.symm
  have hratio : ∀ num den, nearestMagnitude num den = x.magnitude →
      ofRatio? x.negative num den = some x := by
    intro num den hm
    simp only [ofRatio?, hm, x.finite, dif_pos]
  unfold ofDecimal?
  rw [if_neg hc, if_neg hlarge, if_neg hsmall]
  cases exponent with
  | ofNat e =>
    refine hratio _ _ ?_
    simpa [decimalMagnitude] using h
  | negSucc e =>
    refine hratio _ _ ?_
    simpa [decimalMagnitude] using h

end ButtonStyle.Number

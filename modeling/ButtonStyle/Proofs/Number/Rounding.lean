import Mathlib.Algebra.Order.Field.Basic
import Mathlib.Order.SuccPred.IntervalSucc
import Mathlib.Tactic.FieldSimp
import Mathlib.Tactic.NormNum
import ButtonStyle.Proofs.Number.Compact

/-!
# The nearest number is nearest

A number as a rational number (`toRat`), and what it is to round a rational number (`RoundsTo`): to
the nearest number, of two that are equally near to the one with the even magnitude, and to none
where infinity would be as near.

Rounding has at most one answer, up to the sign of a zero (`RoundsTo.beq`), and **a ratio is rounded
to the number of the magnitude that is found for it** (`roundsTo_of_nearestMagnitude`).
-/

namespace ButtonStyle.Number

/-! ### The nearest place on a scale -/

/-- What lies between two equally distant places is nearer than they are. -/
theorem abs_sub_lt_of_between {q a b z : ℚ} (h : |q - a| = |q - b|) (ha : a < z) (hb : z < b) :
    |q - z| < |q - a| := by
  have hmid : q - a = b - q := by
    rcases abs_eq_abs.1 h with h | h
    · linarith
    · linarith
  have hpos : 0 < q - a := by linarith
  rw [abs_of_pos hpos, abs_lt]
  constructor
  · linarith
  · linarith

/-- `p` is the place whose value on a scale is nearest to `x`; of two places that are equally near
it is the even one. -/
def IsNearest (scale : ℕ → ℕ) (x : ℚ) (p : ℕ) : Prop :=
  ∀ c, |x - scale p| ≤ |x - scale c| ∧ (|x - scale p| = |x - scale c| → p = c ∨ Even p)

/-- A whole number at a distance of at most a half is nearest, if it is even where it is a half. -/
theorem isNearest_id {x : ℚ} {p : ℕ} (h : |x - p| ≤ 1 / 2) (heven : |x - p| = 1 / 2 → Even p) :
    IsNearest id x p := by
  intro c
  by_cases hc : p = c
  · subst hc
    exact ⟨le_rfl, fun _ => .inl rfl⟩
  · -- two whole numbers are at least one apart
    have hne : (p : ℤ) - c ≠ 0 := by omega
    have hstep : (1 : ℚ) ≤ |(p : ℚ) - c| := by exact_mod_cast Int.one_le_abs hne
    have htriangle : |(p : ℚ) - c| ≤ |x - p| + |x - c| := by
      rw [abs_sub_comm x p]
      exact abs_sub_le _ _ _
    simp only [id_eq]
    refine ⟨by linarith, fun heq => .inr (heven ?_)⟩
    linarith

theorem isNearest_of_lt_half (whole : ℕ) {part : ℚ} (hzero : 0 ≤ part) (hpart : part < 1 / 2) :
    IsNearest id (whole + part) whole := by
  have hdist : |(whole : ℚ) + part - whole| = part := by
    rw [add_sub_cancel_left, abs_of_nonneg hzero]
  refine isNearest_id ?_ fun h => ?_
  · rw [hdist]
    exact hpart.le
  · rw [hdist] at h
    exact absurd h hpart.ne

theorem isNearest_of_half_lt (whole : ℕ) {part : ℚ} (hpart : 1 / 2 < part) (hone : part < 1) :
    IsNearest id (whole + part) (whole + 1) := by
  have hdist : |(whole : ℚ) + part - (whole + 1 : ℕ)| = 1 - part := by
    push_cast
    rw [abs_of_neg (by linarith)]
    ring
  refine isNearest_id ?_ fun h => ?_
  · rw [hdist]
    linarith
  · rw [hdist] at h
    linarith

theorem isNearest_of_half (whole : ℕ) : IsNearest id (whole + 1 / 2) (whole + whole % 2) := by
  refine isNearest_id ?_ fun _ => ⟨(whole + whole % 2) / 2, by omega⟩
  rcases Nat.mod_two_eq_zero_or_one whole with h | h
  · rw [h, Nat.add_zero, add_sub_cancel_left]
    norm_num
  · rw [h]
    push_cast
    rw [add_sub_add_left_eq_sub]
    norm_num

/-- **Rounding a ratio gives the nearest whole number, and the even one of two.** -/
theorem isNearest_roundRatio (num : ℕ) {den : ℕ} (hden : 0 < den) :
    IsNearest id (num / den) (roundRatio num den) := by
  have hq : (0 : ℚ) < den := by exact_mod_cast hden
  have hsum : (num : ℚ) / den = (num / den : ℕ) + (num % den : ℕ) / den := by
    rw [eq_comm, ← mul_right_inj' hq.ne', mul_add, mul_div_cancel₀ _ hq.ne',
      mul_div_cancel₀ _ hq.ne']
    exact_mod_cast Nat.div_add_mod num den
  have hzero : (0 : ℚ) ≤ (num % den : ℕ) / den := by positivity
  have hone : ((num % den : ℕ) : ℚ) / den < 1 := by
    rw [div_lt_one hq]
    exact_mod_cast Nat.mod_lt num hden
  have hlow : ((num % den : ℕ) : ℚ) / den < 1 / 2 ↔ 2 * (num % den) < den := by
    rw [div_lt_iff₀ hq, ← Nat.cast_lt (α := ℚ), Nat.cast_mul]
    push_cast
    constructor <;> intro h <;> linarith
  have hhigh : 1 / 2 < ((num % den : ℕ) : ℚ) / den ↔ den < 2 * (num % den) := by
    rw [lt_div_iff₀ hq, ← Nat.cast_lt (α := ℚ), Nat.cast_mul]
    push_cast
    constructor <;> intro h <;> linarith
  rw [hsum]
  unfold roundRatio
  simp only [← hlow, ← hhigh]
  split
  · next h => exact isNearest_of_lt_half _ hzero h
  · next hle =>
    split
    · next h => exact isNearest_of_half_lt _ h hone
    · next hge =>
      rw [le_antisymm (not_lt.1 hge) (not_lt.1 hle)]
      exact isNearest_of_half _

/-! ### The scale of magnitudes -/

/-- `p` bits of one size, be they of the last binade of that size or the first of the next. -/
theorem unitsOf_of_shift {s p : ℕ} (hp : p ≤ 2 * binadeSize) (hs : s = 0 ∨ binadeSize ≤ p) :
    unitsOf (s * binadeSize + p) = p * 2 ^ s := by
  have hsize : 0 < binadeSize := by rw [binadeSize_eq]; exact Nat.two_pow_pos _
  unfold unitsOf
  simp only [natPow_eq]
  generalize binadeSize = size at *
  rcases Nat.lt_or_ge p size with hlow | hlow
  · obtain rfl : s = 0 := by omega
    simp [Nat.div_eq_of_lt hlow, Nat.mod_eq_of_lt hlow]
  · obtain ⟨place, rfl⟩ := Nat.exists_eq_add_of_le hlow
    have hsplit : s * size + (size + place) = place + size * (s + 1) := by ring
    rw [hsplit, Nat.add_mul_div_left _ _ hsize, Nat.add_mul_mod_self_left]
    rcases Nat.lt_or_ge place size with hplace | hplace
    · simp [Nat.div_eq_of_lt hplace, Nat.mod_eq_of_lt hplace]
    · obtain rfl : place = size := by omega
      simp only [Nat.div_self hsize, Nat.mod_self]
      rw [if_neg (by omega), Nat.add_zero, Nat.add_comm 1 (s + 1), Nat.add_sub_cancel, pow_succ]
      ring

theorem even_binadeSize : Even binadeSize := ⟨2 ^ 51, by rw [binadeSize_eq]; norm_num⟩

/-- Magnitudes are in the order of their values. -/
theorem unitsOf_strictMono : StrictMono unitsOf := by
  refine strictMono_nat_of_lt_succ fun m => ?_
  obtain ⟨s, p, hm, hp, hs, hunits⟩ := exists_shift m
  have hnext : unitsOf (m + 1) = (p + 1) * 2 ^ s := by
    rw [hm, Nat.add_assoc]
    exact unitsOf_of_shift (by omega) (by omega)
  rw [hunits, hnext]
  exact (Nat.mul_lt_mul_right (Nat.two_pow_pos s)).2 (Nat.lt_succ_self p)

/-- From a binade on, values are multiples of the size of its bits. -/
theorem exists_unitsOf_eq_mul {s k : ℕ} (h : s * binadeSize + binadeSize ≤ k ∨ s = 0) :
    ∃ c, unitsOf k = c * 2 ^ s := by
  obtain ⟨t, p, hk, hp, -, hunits⟩ := exists_shift k
  have hst : s ≤ t := by
    rcases h with h | rfl
    · by_contra hlt
      have hle : (t + 1) * binadeSize ≤ s * binadeSize := Nat.mul_le_mul_right _ (by omega)
      rw [Nat.add_mul] at hle
      omega
    · exact Nat.zero_le t
  refine ⟨p * 2 ^ (t - s), ?_⟩
  rw [hunits, Nat.mul_assoc, ← pow_add, Nat.sub_add_cancel hst]

/-- The whole number nearest to `x` is on the same side of any whole number as `x`. -/
theorem IsNearest.le_of_le {x : ℚ} {p n : ℕ} (h : IsNearest id x p) (hn : x ≤ n) : p ≤ n := by
  by_contra hlt
  have hlt : (n : ℚ) < p := by exact_mod_cast not_le.1 hlt
  have hnear := (h n).1
  rw [id_eq, id_eq, abs_of_neg (by linarith), abs_of_nonpos (by linarith)] at hnear
  linarith

theorem IsNearest.ge_of_ge {x : ℚ} {p n : ℕ} (h : IsNearest id x p) (hn : n ≤ x) : n ≤ p := by
  by_contra hlt
  have hlt : (p : ℚ) < n := by exact_mod_cast not_le.1 hlt
  have hnear := (h n).1
  rw [id_eq, id_eq, abs_of_pos (by linarith), abs_of_nonneg (by linarith)] at hnear
  linarith

/-- The shift for a ratio brings it into the range of the bits of one binade. -/
theorem shift_bounds (num den : ℕ) {s : ℕ} (hs : (num / den).log2 - 52 = s) (hden : 0 < den) :
    num < 2 * binadeSize * (den * 2 ^ s) ∧ (s = 0 ∨ binadeSize * (den * 2 ^ s) ≤ num) := by
  have hlog : num / den < 2 ^ ((num / den).log2 + 1) := Nat.lt_log2_self
  have hsize : 2 * binadeSize * (den * 2 ^ s) = 2 ^ (53 + s) * den := by
    rw [binadeSize_eq, pow_add]
    ring
  have hsize' : binadeSize * (den * 2 ^ s) = 2 ^ (52 + s) * den := by
    rw [binadeSize_eq, pow_add]
    ring
  constructor
  · rw [hsize]
    refine (Nat.div_lt_iff_lt_mul hden).1 (hlog.trans_le ?_)
    exact Nat.pow_le_pow_right (by omega) (by omega)
  · by_cases h0 : s = 0
    · exact .inl h0
    · right
      have hpos : num / den ≠ 0 := by
        intro h
        rw [h] at hs
        exact h0 hs.symm
      have hle : 2 ^ (52 + s) ≤ num / den := (Nat.le_log2 hpos).1 (by omega)
      rw [hsize']
      exact (Nat.le_div_iff_mul_le hden).1 hle

/-- A magnitude below a binade is farther from what lies in the binade than the nearest one in
it. -/
theorem IsNearest.lt_of_below {s p k : ℕ} {y : ℚ} (h : IsNearest id y p) (hy : binadeSize ≤ y)
    (hk : k < s * binadeSize + binadeSize) :
    |y - p| * (2 ^ s : ℕ) < |y * (2 ^ s : ℕ) - unitsOf k| := by
  have hpow : (0 : ℚ) < (2 ^ s : ℕ) := by exact_mod_cast Nat.two_pow_pos s
  have hedge := (h binadeSize).1
  rw [id_eq, id_eq, abs_of_nonneg (sub_nonneg.2 hy)] at hedge
  have hunits : unitsOf k < binadeSize * 2 ^ s := by
    rw [← unitsOf_of_shift (by omega) (.inr le_rfl)]
    exact unitsOf_strictMono hk
  have hunits : (unitsOf k : ℚ) < binadeSize * (2 ^ s : ℕ) := by exact_mod_cast hunits
  calc |y - p| * (2 ^ s : ℕ)
      ≤ (y - binadeSize) * (2 ^ s : ℕ) := mul_le_mul_of_nonneg_right hedge hpow.le
    _ < y * (2 ^ s : ℕ) - unitsOf k := by rw [sub_mul]; linarith
    _ ≤ |y * (2 ^ s : ℕ) - unitsOf k| := le_abs_self _

/-- What is nearest among the bits of a binade is nearest among all magnitudes. -/
theorem IsNearest.of_binade {s p : ℕ} {y : ℚ} (h : IsNearest id y p)
    (hhigh : y ≤ (2 * binadeSize : ℕ)) (hlow : s = 0 ∨ binadeSize ≤ y) :
    IsNearest unitsOf (y * (2 ^ s : ℕ)) (s * binadeSize + p) := by
  have hpow : (0 : ℚ) < (2 ^ s : ℕ) := by exact_mod_cast Nat.two_pow_pos s
  have hp := h.le_of_le hhigh
  have hp' : s = 0 ∨ binadeSize ≤ p := hlow.imp_right h.ge_of_ge
  have hdist (c : ℕ) : |y * (2 ^ s : ℕ) - (c * 2 ^ s : ℕ)| = |y - c| * (2 ^ s : ℕ) := by
    rw [Nat.cast_mul, ← sub_mul, abs_mul, abs_of_pos hpow]
  have heven : Even p → Even (s * binadeSize + p) := fun h => (even_binadeSize.mul_left s).add h
  intro k
  rw [unitsOf_of_shift hp hp', hdist]
  by_cases hk : s * binadeSize + binadeSize ≤ k ∨ s = 0
  · obtain ⟨c, hc⟩ := exists_unitsOf_eq_mul hk
    obtain ⟨hle, heq⟩ := h c
    rw [hc, hdist]
    refine ⟨mul_le_mul_of_nonneg_right hle hpow.le, fun heq' => ?_⟩
    refine (heq (mul_right_cancel₀ hpow.ne' heq')).imp (fun hpc => ?_) heven
    refine unitsOf_injective ?_
    rw [unitsOf_of_shift hp hp', hc, hpc]
  · push Not at hk
    have hfar := h.lt_of_below (hlow.resolve_left hk.2) hk.1
    exact ⟨hfar.le, fun heq => absurd heq hfar.ne⟩

/-- **The magnitude that is found for a ratio is nearest to it, and the even one of two.** -/
theorem isNearest_nearestMagnitude (num : ℕ) {den : ℕ} (hden : 0 < den) :
    IsNearest unitsOf (num / den) (nearestMagnitude num den) := by
  unfold nearestMagnitude
  extract_lets s
  obtain ⟨hhigh, hlow⟩ := shift_bounds num den (s := s) rfl hden
  have hpow := Nat.two_pow_pos s
  have hden' : (0 : ℚ) < (den * 2 ^ s : ℕ) := by exact_mod_cast Nat.mul_pos hden hpow
  have hratio : (num : ℚ) / den = num / (den * 2 ^ s : ℕ) * (2 ^ s : ℕ) := by
    have hpow' : ((2 ^ s : ℕ) : ℚ) ≠ 0 := by exact_mod_cast hpow.ne'
    rw [Nat.cast_mul, div_mul_eq_div_div, div_mul_cancel₀ _ hpow']
  rw [natPow_eq, hratio]
  have hround := isNearest_roundRatio num (Nat.mul_pos hden hpow)
  refine hround.of_binade ?_ (hlow.imp_right fun h => ?_)
  · rw [div_le_iff₀ hden']
    exact_mod_cast hhigh.le
  · rw [le_div_iff₀ hden']
    exact_mod_cast h

/-! ### Rounding to a number -/

/-- The value of a number. -/
def toRat (x : Number) : ℚ := x.units / unitsPerOne

/-- A rational number is rounded to a number: to the nearest, of two that are equally near to the
one with the even magnitude, and only if it is nearer than `2 ^ 1024`, the first power of two beyond
all numbers. -/
structure RoundsTo (q : ℚ) (x : Number) : Prop where
  nearest (y : Number) : |q - x.toRat| ≤ |q - y.toRat|
  even (y : Number) : |q - x.toRat| = |q - y.toRat| → (x == y) = true ∨ Even x.magnitude
  inRange : |q - x.toRat| < 2 ^ 1024 - |q|

/-- A rational number with a sign. -/
def signed (negative : Bool) (r : ℚ) : ℚ := if negative then -r else r

@[simp] theorem signed_zero (negative : Bool) : signed negative 0 = 0 := by
  cases negative
  · rfl
  · exact neg_zero

theorem abs_signed (negative : Bool) {r : ℚ} (h : 0 ≤ r) : |signed negative r| = r := by
  cases negative
  · exact abs_of_nonneg h
  · rw [signed, if_pos rfl, abs_neg, abs_of_nonneg h]

theorem signed_sub_signed (negative : Bool) (r u : ℚ) :
    |signed negative r - signed negative u| = |r - u| := by
  cases negative
  · rfl
  · rw [signed, signed, if_pos rfl, if_pos rfl, ← abs_neg (r - u)]
    congr 1
    ring

theorem signed_sub_signed_not (negative : Bool) {r u : ℚ} (hr : 0 ≤ r) (hu : 0 ≤ u) :
    |signed negative r - signed (!negative) u| = r + u := by
  have hsum : 0 ≤ r + u := add_nonneg hr hu
  cases negative
  · simp only [signed, Bool.not_false, if_true, Bool.false_eq_true, if_false, sub_neg_eq_add]
    exact abs_of_nonneg hsum
  · simp only [signed, Bool.not_true, if_true, Bool.false_eq_true, if_false]
    rw [← neg_add', abs_neg, abs_of_nonneg hsum]

theorem cast_units (x : Number) : (x.units : ℚ) = signed x.negative (unitsOf x.magnitude) := by
  unfold units signed
  split <;> simp

theorem cast_unitsPerOne_pos : (0 : ℚ) < unitsPerOne := by exact_mod_cast unitsPerOne_pos

theorem unitsOf_limit : unitsOf limit = 2 ^ 1024 * unitsPerOne := by
  have hlimit : limit = 2045 * binadeSize + 2 * binadeSize := by unfold limit; ring
  rw [hlimit, unitsOf_of_shift le_rfl (.inr (by omega)), binadeSize_eq, unitsPerOne_eq,
    ← pow_succ', ← pow_add, ← pow_add]

theorem even_limit : Even limit := even_binadeSize.mul_left 2047

/-- What is nearest to the magnitude of a number is nearer to it than to the least that is none. -/
theorem IsNearest.inRange {r : ℚ} {m : ℕ} (h : IsNearest unitsOf r m) (hm : m < limit) :
    |r - unitsOf m| < unitsOf limit - r := by
  have hmono {a b : ℕ} (hab : a < b) : (unitsOf a : ℚ) < unitsOf b := by
    exact_mod_cast unitsOf_strictMono hab
  obtain ⟨hle, heven⟩ := h limit
  have hr : r < unitsOf limit := by
    by_contra hge
    have hge := not_lt.1 hge
    have hlt := hmono hm
    rw [abs_of_nonneg (by linarith), abs_of_nonneg (by linarith)] at hle
    linarith
  have hdist : |r - unitsOf limit| = unitsOf limit - r := by
    rw [abs_of_neg (by linarith), neg_sub]
  rw [hdist] at hle heven
  refine lt_of_le_of_ne hle fun heq => ?_
  have hmeven : Even m := (heven heq).resolve_left hm.ne
  -- the magnitude before `limit` is odd, so it lies between the two
  obtain ⟨c, hc⟩ := even_limit
  obtain ⟨d, hd⟩ := hmeven
  have hbetween := abs_sub_lt_of_between (heq.trans hdist.symm)
    (hmono (show m < limit - 1 by omega)) (hmono (show limit - 1 < limit by omega))
  exact absurd (h (limit - 1)).1 (not_le.2 hbetween)

theorem abs_sub_toRat (negative : Bool) (r : ℚ) (y : Number) :
    |signed negative (r / unitsPerOne) - y.toRat| =
      |signed negative r - signed y.negative (unitsOf y.magnitude)| / unitsPerOne := by
  have hscale : signed negative (r / unitsPerOne) = signed negative r / unitsPerOne := by
    cases negative
    · rfl
    · exact (neg_div _ _).symm
  rw [hscale, toRat, cast_units, ← sub_div, abs_div, abs_of_pos cast_unitsPerOne_pos]

/-- A number of the other sign is no nearer. -/
theorem abs_sub_le_abs_signed_sub {r : ℚ} (hr : 0 ≤ r) (negative : Bool) (y : Number) :
    |r - unitsOf y.magnitude| ≤ |signed negative r - signed y.negative (unitsOf y.magnitude)| := by
  have h := abs_abs_sub_abs_le (signed negative r) (signed y.negative (unitsOf y.magnitude))
  rwa [abs_signed negative hr, abs_signed y.negative (Nat.cast_nonneg _)] at h

theorem roundsTo_of_isNearest {x : Number} {r : ℚ} (hr : 0 ≤ r)
    (h : IsNearest unitsOf r x.magnitude) :
    RoundsTo (signed x.negative (r / unitsPerOne)) x := by
  have hone := cast_unitsPerOne_pos
  have hown : |signed x.negative (r / unitsPerOne) - x.toRat| =
      |r - unitsOf x.magnitude| / unitsPerOne := by
    rw [abs_sub_toRat, signed_sub_signed]
  constructor
  case nearest =>
    intro y
    rw [hown, abs_sub_toRat]
    have hle := (h y.magnitude).1.trans (abs_sub_le_abs_signed_sub hr x.negative y)
    exact div_le_div_of_nonneg_right hle hone.le
  case even =>
    intro y heq
    rw [hown, abs_sub_toRat, div_left_inj' hone.ne'] at heq
    obtain ⟨hle, heven⟩ := h y.magnitude
    have hle' := abs_sub_le_abs_signed_sub hr x.negative y
    refine (heven (by linarith)).imp_left fun hm => ?_
    by_cases hsign : x.negative = y.negative
    · rw [beq_iff, units, units, hsign, hm]
    · -- equally distant on both sides of zero, and zero is not nearer: both are zero
      have hother : y.negative = !x.negative := Bool.eq_not.2 (Ne.symm hsign)
      have hzero := (h 0).1
      have hnone : ((unitsOf 0 : ℕ) : ℚ) = 0 := by exact_mod_cast unitsOf_eq_zero_iff.2 rfl
      have hy : (0 : ℚ) ≤ unitsOf y.magnitude := Nat.cast_nonneg _
      rw [hother, signed_sub_signed_not _ hr hy] at heq
      rw [hnone, sub_zero, abs_of_nonneg hr] at hzero
      have hunits : unitsOf y.magnitude = 0 := by
        exact_mod_cast (le_antisymm (by linarith) hy : (unitsOf y.magnitude : ℚ) = 0)
      have hxunits := natAbs_units x
      have hyunits := natAbs_units y
      rw [hm] at hxunits
      rw [beq_iff]
      omega
  case inRange =>
    have hlimit : (2 : ℚ) ^ 1024 = unitsOf limit / unitsPerOne := by
      rw [unitsOf_limit, eq_div_iff hone.ne', Nat.cast_mul, Nat.cast_pow, Nat.cast_ofNat]
    rw [hown, abs_signed _ (div_nonneg hr hone.le), hlimit, ← sub_div]
    exact div_lt_div_of_pos_right (h.inRange x.finite) hone

/-- **A ratio is rounded to the number of the magnitude that is found for it.** -/
theorem roundsTo_of_nearestMagnitude {x : Number} {num den : ℕ} (hden : 0 < den)
    (h : nearestMagnitude num den = x.magnitude) :
    RoundsTo (signed x.negative (num / den / unitsPerOne)) x := by
  refine roundsTo_of_isNearest (by positivity) ?_
  rw [← h]
  exact isNearest_nearestMagnitude num hden

/-! ### Rounding has one answer -/

/-- The place of a number in the increasing list of all numbers, both zeros being at place zero. -/
def place (x : Number) : ℤ := if x.negative then -x.magnitude else x.magnitude

theorem natAbs_place (x : Number) : x.place.natAbs = x.magnitude := by
  unfold place
  split <;> simp

theorem exists_place_eq {n : ℤ} (h : n.natAbs < limit) : ∃ x : Number, x.place = n := by
  refine ⟨⟨decide (n < 0), n.natAbs, h⟩, ?_⟩
  simp only [place, decide_eq_true_eq]
  split <;> omega

/-- The list is increasing. -/
theorem units_lt_units {x y : Number} (h : x.place < y.place) : x.units < y.units := by
  have hmono {m n : ℕ} (hmn : m < n) : unitsOf m < unitsOf n := unitsOf_strictMono hmn
  unfold place at h
  unfold units
  split_ifs at h ⊢
  · have := hmono (show y.magnitude < x.magnitude by omega)
    omega
  · rcases Nat.eq_zero_or_pos x.magnitude with hx | hx
    · have := hmono (show x.magnitude < y.magnitude by omega)
      omega
    · have := hmono hx
      omega
  · omega
  · have := hmono (show x.magnitude < y.magnitude by omega)
    omega

theorem beq_of_place_eq {x y : Number} (h : x.place = y.place) : (x == y) = true := by
  have hzero : unitsOf 0 = 0 := unitsOf_eq_zero_iff.2 rfl
  rw [beq_iff]
  unfold place at h
  unfold units
  split_ifs at h ⊢
  · rw [show x.magnitude = y.magnitude by omega]
  · rw [show x.magnitude = 0 by omega, show y.magnitude = 0 by omega, hzero]
    rfl
  · rw [show x.magnitude = 0 by omega, show y.magnitude = 0 by omega, hzero]
    rfl
  · rw [show x.magnitude = y.magnitude by omega]

/-- Of two numbers to which the same is rounded, neither is below the other. -/
theorem RoundsTo.not_place_lt {q : ℚ} {x y : Number} (hx : RoundsTo q x) (hy : RoundsTo q y) :
    ¬ x.place < y.place := by
  intro hlt
  have hmono {a b : Number} (hab : a.place < b.place) : a.toRat < b.toRat := by
    have h : (a.units : ℚ) < b.units := by exact_mod_cast units_lt_units hab
    exact div_lt_div_of_pos_right h cast_unitsPerOne_pos
  have heq : |q - x.toRat| = |q - y.toRat| := le_antisymm (hx.nearest y) (hy.nearest x)
  have hne := (units_lt_units hlt).ne
  obtain ⟨c, hc⟩ := (hx.even y heq).resolve_left fun h => hne (beq_iff.1 h)
  obtain ⟨d, hd⟩ := (hy.even x heq.symm).resolve_left fun h => hne (beq_iff.1 h).symm
  -- both are even, so there is a number between them, and it is nearer
  have hxplace := x.natAbs_place
  have hyplace := y.natAbs_place
  have hxlimit := x.finite
  have hylimit := y.finite
  obtain ⟨z, hz⟩ := exists_place_eq (n := x.place + 1) (by omega)
  have hbetween := abs_sub_lt_of_between heq (hmono (show x.place < z.place by omega))
    (hmono (show z.place < y.place by omega))
  exact absurd (hx.nearest z) (not_le.2 hbetween)

/-- **A rational number is rounded to one number at most**, up to the sign of a zero. -/
theorem RoundsTo.beq {q : ℚ} {x y : Number} (hx : RoundsTo q x) (hy : RoundsTo q y) :
    (x == y) = true := by
  have hle := hx.not_place_lt hy
  have hge := hy.not_place_lt hx
  exact beq_of_place_eq (by omega)

theorem RoundsTo.congr {q : ℚ} {x y : Number} (hx : RoundsTo q x) (h : (x == y) = true) :
    RoundsTo q y := by
  have hunits := beq_iff.1 h
  have hrat : y.toRat = x.toRat := by rw [toRat, toRat, hunits]
  have hmagnitude : y.magnitude = x.magnitude := by
    refine unitsOf_injective ?_
    rw [← natAbs_units, ← hunits, natAbs_units]
  constructor
  case nearest => rw [hrat]; exact hx.nearest
  case even =>
    intro z hz
    rw [hrat] at hz
    rw [hmagnitude, beq_iff, ← hunits, ← beq_iff]
    exact hx.even z hz
  case inRange => rw [hrat]; exact hx.inRange

end ButtonStyle.Number

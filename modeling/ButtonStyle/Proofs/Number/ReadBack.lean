import Mathlib.Data.List.TakeWhile
import ButtonStyle.Number.Text
import ButtonStyle.Proofs.Digits
import ButtonStyle.Proofs.Number.Nearest

/-!
# Numbers are read back

The search for the shortest decimal always ends at one that is read back, since the finest grid is
finer than the spacing of the units (`onGrid?_finest`).  What is written of it keeps its value, in
positional as in scientific notation, so that **the JSON literal of a number is read as that number**
(`number?_literal`).
-/

namespace ButtonStyle

/-- The power of ten of the last digit of a decimal. -/
def Decimal.lastExponent (d : Decimal) : ℤ := d.exponent + 1 - d.digits.length

namespace Number

/-! ### The grids -/

theorem finest_eq : finest = 10 ^ 324 := by
  unfold finest
  generalize 324 = e
  exact natPow_eq 10 e

theorem readsBack_iff {m count : ℕ} :
    readsBack m count = true ↔ decimalMagnitude count (-324) = m := by
  have he : ((0 : ℕ) : ℤ) - (324 : ℕ) = -324 := by norm_num
  have h := decimalMagnitude_sub count 0 324
  rw [he, pow_zero, Nat.mul_one, ← finest_eq] at h
  unfold readsBack
  rw [beq_iff_eq, h]

theorem choose_eq (tie : Tie) (below : ℕ) :
    tie.choose below = below ∨ tie.choose below = below + 1 := by
  cases tie with
  | up => exact Or.inr rfl
  | even =>
    have := Nat.mod_two_eq_zero_or_one below
    simp only [Tie.choose]
    omega

/-- A neighbour is sound. -/
theorem sound_of_neighbour? {tie : Tie} {sound : ℕ → Bool} {exact step count : ℕ}
    (h : neighbour? tie sound exact step = some count) : sound count = true := by
  unfold neighbour? at h
  generalize exact / step = below at h
  have htie := choose_eq tie below
  cases hb : sound below <;> cases ha : sound (below + 1) <;>
    simp only [hb, ha, Option.some.injEq] at h
  · cases h
  · rw [← h, ha]
  · rw [← h, hb]
  · have hcount : count = below ∨ count = below + 1 := by
      subst h
      split
      · exact Or.inl rfl
      · split
        · exact Or.inr rfl
        · exact htie
    rcases hcount with rfl | rfl
    · exact hb
    · exact ha

theorem neighbour?_isSome {tie : Tie} {sound : ℕ → Bool} {exact step : ℕ}
    (h : sound (exact / step) = true) : (neighbour? tie sound exact step).isSome := by
  unfold neighbour?
  simp only [h]
  cases sound (exact / step + 1) <;> rfl

/-- What is found on a grid is read back. -/
theorem readsBack_of_onGrid? {tie : Tie} {m k count : ℕ} (h : onGrid? tie m k = some count) :
    readsBack m (count * 10 ^ k) = true := by
  unfold onGrid? at h
  have hsound := sound_of_neighbour? h
  rwa [natPow_eq] at hsound

/-- The finest grid has a step of less than half a unit. -/
theorem two_unitsPerOne_lt_finest : 2 * unitsPerOne < finest := by decide +kernel

/-- A step of the finest grid less than a magnitude is read back as the magnitude. -/
theorem readsBack_finest (m : ℕ) : readsBack m (unitsOf m * finest / unitsPerOne) = true := by
  have hone := unitsPerOne_pos
  have hstep := two_unitsPerOne_lt_finest
  unfold readsBack
  rw [beq_iff_eq]
  generalize unitsPerOne = one at *
  generalize finest = parts at *
  have hmod := Nat.div_add_mod (unitsOf m * parts) one
  have hlt := Nat.mod_lt (unitsOf m * parts) hone
  rw [Nat.mul_comm] at hmod
  exact nearestMagnitude_eq (by omega) (by omega)

/-- **The finest grid has an answer for every magnitude.** -/
theorem onGrid?_finest (tie : Tie) (m : ℕ) : (onGrid? tie m 0).isSome := by
  refine neighbour?_isSome ?_
  have hpow : Nat.pow 10 0 = 1 := rfl
  simp only [hpow, Nat.mul_one]
  exact readsBack_finest m

/-- The search ends at a grid with an answer if the finest has one. -/
theorem answer_coarsest {answer? : ℕ → Option ℕ} (h : (answer? 0).isSome) (k : ℕ) :
    answer? (coarsest answer? k).2 = some (coarsest answer? k).1 := by
  induction k with
  | zero =>
    obtain ⟨count, hcount⟩ := Option.isSome_iff_exists.1 h
    simp only [coarsest, hcount, Option.getD_some]
  | succ k ih =>
    unfold coarsest
    split
    · assumption
    · exact ih

theorem readsBack_coarsest (tie : Tie) (m k : ℕ) :
    readsBack m ((coarsest (onGrid? tie m) k).1 * 10 ^ (coarsest (onGrid? tie m) k).2) = true :=
  readsBack_of_onGrid? (answer_coarsest (onGrid?_finest tie m) k)

/-! ### The shortest decimal -/

theorem exists_trailing_zeros (ds : List Digit) :
    ∃ n, ds = dropTrailingZeros ds ++ List.replicate n Digit.zero := by
  have hzeros : ∀ d ∈ ds.reverse.takeWhile (· = Digit.zero), d = Digit.zero := fun d hd => by
    simpa using List.mem_takeWhile_imp hd
  refine ⟨(ds.reverse.takeWhile (· = Digit.zero)).length, ?_⟩
  rw [← List.reverse_inj, List.reverse_append, List.reverse_replicate, dropTrailingZeros,
    List.reverse_reverse, ← List.eq_replicate_iff.2 ⟨rfl, hzeros⟩, List.takeWhile_append_dropWhile]

theorem exists_shortest_eq (tie : Tie) {x : Number} (hx : x.magnitude ≠ 0) :
    ∃ count k : ℕ, readsBack x.magnitude (count * 10 ^ k) = true ∧
      x.shortest tie =
        ⟨dropTrailingZeros (Digits.ofNat count), k + (Digits.ofNat count).length - 325⟩ := by
  have hzero : x.isZero = false := by simpa [isZero] using hx
  unfold shortest
  rw [hzero, if_neg Bool.false_ne_true]
  extract_lets first
  have hback := readsBack_coarsest tie x.magnitude first
  rcases hc : coarsest (onGrid? tie x.magnitude) first with ⟨count, k⟩
  rw [hc] at hback
  exact ⟨count, k, hback, rfl⟩

/-- **The shortest decimal of a number that is not zero has its magnitude.** -/
theorem decimalMagnitude_shortest (tie : Tie) {x : Number} (hx : x.magnitude ≠ 0) :
    decimalMagnitude (Digits.value (x.shortest tie).digits) (x.shortest tie).lastExponent =
      x.magnitude := by
  obtain ⟨count, k, hback, hshortest⟩ := exists_shortest_eq tie hx
  obtain ⟨zeros, hzeros⟩ := exists_trailing_zeros (Digits.ofNat count)
  rw [readsBack_iff, decimalMagnitude_mul_pow] at hback
  rw [hshortest]
  have hvalue : count = Digits.value (dropTrailingZeros (Digits.ofNat count)) * 10 ^ zeros := by
    conv_lhs => rw [← Digits.value_ofNat count, hzeros]
    rw [Digits.value_append, Digits.value_replicate_zero, List.length_replicate, Nat.add_zero]
  have hlength := congrArg List.length hzeros
  rw [List.length_append, List.length_replicate] at hlength
  generalize dropTrailingZeros (Digits.ofNat count) = ds at *
  rw [hvalue, decimalMagnitude_mul_pow] at hback
  rw [← hback, Decimal.lastExponent]
  congr 1
  simp only
  omega

theorem digits_shortest_ne_nil (tie : Tie) (x : Number) : (x.shortest tie).digits ≠ [] := by
  by_cases hx : x.magnitude = 0
  · have hzero : x.isZero = true := by simpa [isZero] using hx
    simp [shortest, hzero]
  · intro hnil
    have h := decimalMagnitude_shortest tie hx
    rw [hnil, Digits.value_nil, decimalMagnitude_zero] at h
    exact hx h.symm

/-! ### The JSON literal -/

theorem number?_eq_some {l : Json.Literal} {x : Number} (hn : l.negative = x.negative)
    (hx : x.magnitude ≠ 0)
    (h : decimalMagnitude (l.whole * 10 ^ l.fraction.length + Digits.value l.fraction)
      (l.exponent.getD 0 - l.fraction.length) = x.magnitude) : l.number? = some x := by
  unfold Json.Literal.number?
  rw [hn, natPow_eq]
  exact ofDecimal?_eq_some hx h

/-- Positional notation keeps the value of a decimal, with as many zeros at its end as it needs. -/
theorem exists_split_eq (d : Decimal) :
    ∃ zeros : ℕ, Digits.value d.split.1 * 10 ^ d.split.2.length + Digits.value d.split.2 =
        Digits.value d.digits * 10 ^ zeros ∧
      d.lastExponent = zeros - d.split.2.length := by
  obtain ⟨digits, exponent⟩ := d
  unfold Decimal.split Decimal.lastExponent
  cases exponent with
  | negSucc zeros =>
    refine ⟨0, ?_, ?_⟩
    · have hzero : Digits.value [Digit.zero] = 0 := rfl
      simp [Digits.value_append, hzero]
    · simp only [List.length_append, List.length_replicate]
      omega
  | ofNat e =>
    by_cases hlen : digits.length ≤ e + 1
    · simp only [if_pos hlen]
      refine ⟨e + 1 - digits.length, ?_, ?_⟩
      · simp [Digits.value_append]
      · simp only [Int.ofNat_eq_natCast, List.length_nil]
        omega
    · simp only [if_neg hlen, List.splitAt_eq]
      refine ⟨0, ?_, ?_⟩
      · rw [← Digits.value_append, List.take_append_drop, pow_zero, Nat.mul_one]
      · simp only [Int.ofNat_eq_natCast, List.length_drop]
        omega

/-- A literal without exponent; where there are no digits after the point, a zero stands there. -/
theorem number?_positional {x : Number} (hx : x.magnitude ≠ 0) {whole : ℕ} {fraction : List Digit}
    (h : decimalMagnitude (whole * 10 ^ fraction.length + Digits.value fraction)
      (-fraction.length) = x.magnitude) :
    Json.Literal.number?
      ⟨x.negative, whole, if fraction.isEmpty then [.zero] else fraction, none⟩ = some x := by
  refine number?_eq_some rfl hx ?_
  cases fraction with
  | nil =>
    have hzero : Digits.value [Digit.zero] = 0 := rfl
    rw [← h]
    simp only [List.isEmpty_nil, if_true, List.length_singleton, hzero, Digits.value_nil,
      List.length_nil, Nat.add_zero, decimalMagnitude_mul_pow]
    rfl
  | cons d ds => simpa using h

theorem number?_literal_of_isZero {x : Number} (hx : x.magnitude = 0) :
    x.literal.number? = some x := by
  obtain ⟨negative, magnitude, hlt⟩ := x
  obtain rfl : magnitude = 0 := hx
  cases negative <;> rfl

/-- **The JSON literal of a number is read as that number.** -/
@[simp] theorem number?_literal (x : Number) : x.literal.number? = some x := by
  by_cases hx : x.magnitude = 0
  · exact number?_literal_of_isZero hx
  · have hmagnitude := decimalMagnitude_shortest .even hx
    have hne := digits_shortest_ne_nil .even x
    unfold literal
    generalize x.shortest .even = d at *
    dsimp only
    split
    · -- positional notation
      obtain ⟨zeros, hvalue, hlast⟩ := exists_split_eq d
      rcases hsplit : d.split with ⟨whole, fraction⟩
      rw [hsplit] at hvalue hlast
      dsimp only at hvalue hlast ⊢
      refine number?_positional hx ?_
      rw [hvalue, decimalMagnitude_mul_pow, ← hmagnitude, hlast]
      congr 1
      omega
    · -- scientific notation: one digit stands before the point
      refine number?_eq_some rfl hx ?_
      rw [← Digits.value_append, List.take_append_drop, ← hmagnitude, Decimal.lastExponent]
      congr 1
      have := List.length_pos_iff.2 hne
      simp only [Option.getD_some, List.length_drop]
      omega

end Number

end ButtonStyle

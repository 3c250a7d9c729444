import Mathlib.Tactic.Ring
import ButtonStyle.Digits

/-!
# Properties of digits

How the number that a list of digits stands for is put together, and what stands first in the
digits of a number.
-/

namespace ButtonStyle.Digits

/-! ### The value of a list of digits -/

@[simp] theorem value_nil : value [] = 0 := rfl

theorem foldl_eq (ds : List Digit) (n : ℕ) :
    ds.foldl (fun k d => 10 * k + d.val) n = n * 10 ^ ds.length + value ds := by
  induction ds generalizing n with
  | nil => simp
  | cons d ds ih =>
    rw [value, List.foldl_cons, List.foldl_cons, ih, ih (10 * 0 + d.val), List.length_cons]
    ring

/-- Two lists of digits, one after the other. -/
theorem value_append (as bs : List Digit) :
    value (as ++ bs) = value as * 10 ^ bs.length + value bs := by
  rw [value, List.foldl_append, foldl_eq]
  rfl

@[simp] theorem value_replicate_zero (n : ℕ) : value (List.replicate n Digit.zero) = 0 := by
  induction n with
  | zero => rfl
  | succ n ih => rw [List.replicate_succ', value_append, ih]; rfl

/-! ### The digits of a number -/

/-- No zero stands in front of the other digits of a number. -/
theorem ofNat_eq_cons (n : ℕ) : ∃ d ds, ofNat n = d :: ds ∧ (ds = [] ∨ d ≠ Digit.zero) := by
  have h : ∀ n tail, (n = 0 → tail = []) →
      ∃ d ds, prepend n tail = d :: ds ∧ (ds = [] ∨ d ≠ Digit.zero) := by
    intro n tail
    fun_induction prepend n tail with
    | case1 n tail hn =>
      intro h
      refine ⟨_, _, rfl, ?_⟩
      by_cases h0 : n = 0
      · exact Or.inl (h h0)
      · exact Or.inr (by simpa [Digit.zero, Fin.ext_iff] using h0)
    | case2 n tail hn ih =>
      intro _
      exact ih (by omega)
  exact h n [] fun _ => rfl

end ButtonStyle.Digits

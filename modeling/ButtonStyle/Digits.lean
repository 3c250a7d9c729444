/-!
# Decimal digits

Lists of decimal digits, most significant first, and the number that such a list stands for.
Main statement: the digits of a number stand for that number (`value_ofNat`).
-/

namespace ButtonStyle

/-- A decimal digit. -/
abbrev Digit := Fin 10

namespace Digit

/-- The digit zero. -/
def zero : Digit := 0

/-- The character that writes a digit. -/
def char (d : Digit) : Char := Char.ofNat (48 + d.val)

/-- The digit that a character writes; ASCII digits only. -/
def ofChar? (c : Char) : Option Digit :=
  if h : 48 ≤ c.toNat ∧ c.toNat < 58 then some ⟨c.toNat - 48, by omega⟩ else none

@[simp] theorem ofChar?_char : ∀ d : Digit, ofChar? d.char = some d := by decide

end Digit

namespace Digits

/-- The number that a list of digits stands for. -/
def value (ds : List Digit) : Nat := ds.foldl (fun n d => 10 * n + d.val) 0

/-- The digits of `n` in front of `tail`. -/
def prepend (n : Nat) (tail : List Digit) : List Digit :=
  if h : n < 10 then ⟨n, h⟩ :: tail
  else prepend (n / 10) (⟨n % 10, by omega⟩ :: tail)

/-- The digits of a number, without superfluous zeros in front. -/
def ofNat (n : Nat) : List Digit := prepend n []

/-- The text of a list of digits. -/
def chars (ds : List Digit) : List Char := ds.map Digit.char

theorem foldl_prepend (n m : Nat) (tail : List Digit) (h : m = 0) :
    (prepend n tail).foldl (fun k d => 10 * k + d.val) m =
      tail.foldl (fun k d => 10 * k + d.val) n := by
  fun_induction prepend n tail with
  | case1 n tail hn => simp [h]
  | case2 n tail hn ih =>
    rw [ih]
    simp only [List.foldl_cons]
    congr 1
    omega

/-- **The digits of a number stand for it.** -/
@[simp] theorem value_ofNat (n : Nat) : value (ofNat n) = n := by
  simp [value, ofNat, foldl_prepend]

end Digits

end ButtonStyle

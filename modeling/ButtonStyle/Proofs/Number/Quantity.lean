import ButtonStyle.Proofs.Number.Text

/-!
# Quantities and their texts

A quantity without the sign of a zero is `plain`.  What is defined is equal by value exactly when it
is plainly the same (`beq_iff`); what is undefined equals nothing, but has its text all the same, so
that **quantities have the same text exactly when they are plainly the same** (`css_eq_css_iff`).
-/

namespace ButtonStyle.Quantity

/-! ### Values and signs -/

/-- A quantity without the sign of a zero. -/
def plain : Quantity → Quantity
  | finite x => finite x.plain
  | infinite negative => infinite negative
  | undefined => undefined

/-- Whether a quantity has a value. -/
def isDefined : Quantity → Bool
  | finite _ | infinite _ => true
  | undefined => false

theorem isFinite_iff {a : Quantity} : a.isFinite = true ↔ ∃ x, a = finite x := by
  cases a <;> simp [isFinite]

theorem isDefined_of_isFinite {a : Quantity} (h : a.isFinite = true) : a.isDefined = true := by
  obtain ⟨x, rfl⟩ := isFinite_iff.1 h
  rfl

@[simp] theorem plain_plain (a : Quantity) : a.plain.plain = a.plain := by
  cases a <;> simp [plain]

@[simp] theorem isFinite_plain (a : Quantity) : a.plain.isFinite = a.isFinite := by
  cases a <;> rfl

@[simp] theorem isDefined_plain (a : Quantity) : a.plain.isDefined = a.isDefined := by
  cases a <;> rfl

/-- **Two quantities are equal by value exactly when they have a value and are plainly the
same.** -/
theorem beq_iff {a b : Quantity} :
    (a == b) = true ↔ a.plain = b.plain ∧ a.isDefined = true := by
  cases a with
  | finite x => cases b <;> simp [plain, isDefined, Number.plain_eq_plain_iff, BEq.beq]
  | infinite negative => cases b <;> simp [plain, isDefined, BEq.beq]
  | undefined => cases b <;> simp [isDefined, BEq.beq]

theorem beq_iff_of_isFinite {a b : Quantity} (h : a.isFinite = true) :
    (a == b) = true ↔ a.plain = b.plain :=
  beq_iff.trans (and_iff_left (isDefined_of_isFinite h))

instance : PartialEquivBEq Quantity where
  symm {a b} h := by
    obtain ⟨hplain, hdefined⟩ := beq_iff.1 h
    rw [← isDefined_plain, hplain, isDefined_plain] at hdefined
    exact beq_iff.2 ⟨hplain.symm, hdefined⟩
  trans {a b c} hab hbc := by
    obtain ⟨hplain, hdefined⟩ := beq_iff.1 hab
    exact beq_iff.2 ⟨hplain.trans (beq_iff.1 hbc).1, hdefined⟩

section Plain

variable (a b : Quantity)

@[simp] theorem lt_plain_iff : b < a.plain ↔ b < a := by
  cases a with
  | finite x =>
    cases b with
    | finite y => rw [plain, finite_lt_finite, finite_lt_finite, Number.lt_plain_iff]
    | infinite | undefined => exact Iff.rfl
  | infinite | undefined => exact Iff.rfl

@[simp] theorem plain_beq : (a.plain == b) = (a == b) := by
  rw [Bool.eq_iff_iff, beq_iff, beq_iff, plain_plain, isDefined_plain]

@[simp] theorem beq_plain : (a == b.plain) = (a == b) := by
  rw [Bool.eq_iff_iff, beq_iff, beq_iff, plain_plain]

@[simp] theorem plain_add_plain : a.plain.add b.plain = a.add b := by
  cases a <;> cases b <;> simp [plain, add]

end Plain

/-! ### Texts -/

/-- The text of a number is no word. -/
theorem css_finite_ne (x : Number) {word : String} (h : 'n' ∈ word.toList ∨ 'N' ∈ word.toList) :
    x.css ≠ word := by
  have hall := x.all_css (p := fun c => c != 'n' && c != 'N') (by decide) (by decide) (by decide)
  have hletters := List.all_eq_true.1 hall
  rintro rfl
  rcases h with h | h
  · exact absurd (hletters 'n' h) (by decide)
  · exact absurd (hletters 'N' h) (by decide)

/-- **Two quantities have the same text exactly when they are plainly the same.** -/
theorem css_eq_css_iff {a b : Quantity} : a.css = b.css ↔ a.plain = b.plain := by
  have hword (x : Number) (b : Quantity) (hb : b.isFinite = false) : x.css ≠ b.css := by
    refine css_finite_ne x ?_
    cases b with
    | finite => cases hb
    | infinite negative => cases negative <;> decide
    | undefined => decide
  cases a with
  | finite x =>
    cases b with
    | finite y => simp [css, plain, Number.css_eq_css_iff, Number.plain_eq_plain_iff]
    | infinite | undefined => exact iff_of_false (hword x _ rfl) Quantity.noConfusion
  | infinite m =>
    cases b with
    | finite y => exact iff_of_false (hword y _ rfl).symm Quantity.noConfusion
    | infinite n => cases m <;> cases n <;> decide
    | undefined => cases m <;> decide
  | undefined =>
    cases b with
    | finite y => exact iff_of_false (hword y _ rfl).symm Quantity.noConfusion
    | infinite n => cases n <;> decide
    | undefined => exact iff_of_true rfl rfl

@[simp] theorem css_plain (a : Quantity) : a.plain.css = a.css := css_eq_css_iff.2 a.plain_plain

/-- Of two quantities that are equal by value the texts are the same. -/
theorem css_eq_of_beq {a b : Quantity} (h : (a == b) = true) : a.css = b.css :=
  css_eq_css_iff.2 (beq_iff.1 h).1

/-- A unit after two quantities tells nothing. -/
theorem css_append_eq_iff {a b : Quantity} {unit : String} :
    a.css ++ unit = b.css ++ unit ↔ a.plain = b.plain := by
  rw [String.append_left_inj, css_eq_css_iff]

end ButtonStyle.Quantity

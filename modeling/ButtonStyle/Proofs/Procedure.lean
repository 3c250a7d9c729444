import ButtonStyle.Procedure

/-!
# Properties of procedures

What has been run in two steps can be told apart again (`run_bind_eq_iff`).  A procedure that does
nothing but ask what there is and read files leaves everything as it is (`run_of_onlyAsks`).
-/

namespace ButtonStyle.Procedure

variable {α β σ : Type}

/-- A run in two steps is a run of the first, and of the second from there. -/
theorem run_bind_eq_iff {system : System σ} {p : Procedure α} {f : α → Procedure β} {s t : σ}
    {b : β} : (p >>= f).run system s = (b, t) ↔
      ∃ a u, p.run system s = (a, u) ∧ (f a).run system u = (b, t) := by
  rw [run_bind]
  constructor
  · exact fun h => ⟨_, _, rfl, h⟩
  · rintro ⟨a, u, hp, hf⟩
    rw [hp]
    exact hf

/-! ### Procedures that only ask -/

/-- A procedure changes nothing: it asks what there is, and reads files. -/
def OnlyAsks : Procedure α → Prop
  | done _ => True
  | holds _ next | read _ next => ∀ r, (next r).OnlyAsks
  | makeParents .. | write .. | print .. | copy .. => False

theorem onlyAsks_pure (a : α) : (pure a : Procedure α).OnlyAsks := trivial

theorem onlyAsks_asksHolds (p : Path) : (asksHolds p).OnlyAsks := fun _ => trivial

theorem onlyAsks_readText (p : Path) : (readText p).OnlyAsks := by
  rintro (why | content)
  · trivial
  · simp only
    split <;> trivial

theorem OnlyAsks.bind {p : Procedure α} {f : α → Procedure β} (hp : p.OnlyAsks)
    (hf : ∀ a, (f a).OnlyAsks) : (p >>= f).OnlyAsks := by
  show (p.andThen f).OnlyAsks
  induction p with
  | done a => exact hf a
  | holds _ _ ih | read _ _ ih => exact fun r => ih r (hp r)
  | makeParents | write | print | copy => exact hp.elim

/-- **A procedure that only asks leaves everything as it is.** -/
theorem run_of_onlyAsks {p : Procedure α} (h : p.OnlyAsks) (system : System σ) (s : σ) :
    p.run system s = ((p.run system s).1, s) := by
  induction p with
  | done a => rfl
  | holds _ _ ih | read _ _ ih => exact ih _ (h _)
  | makeParents | write | print | copy => exact h.elim

end ButtonStyle.Procedure

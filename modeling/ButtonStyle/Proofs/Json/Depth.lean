import ButtonStyle.Proofs.Shape.Value

/-!
# Holding and passing over documents

A document has a depth: how many lists and objects stand in each other.  Any document is passed over
(`pass_draft`), and **one that is not too deep and has no number that is too large can be held**
(`hold_draft`).
-/

namespace ButtonStyle.Json

open Draft

/-! ### Depth -/

mutual

/-- How many lists and objects stand in each other. -/
def depth : Json → Nat
  | list items => itemsDepth items + 1
  | object members => membersDepth members + 1
  | null | flag _ | number _ | text _ => 0

/-- The depth of the deepest item. -/
def itemsDepth : List Json → Nat
  | [] => 0
  | item :: items => max (depth item) (itemsDepth items)

/-- The depth of the deepest value. -/
def membersDepth : List (String × Json) → Nat
  | [] => 0
  | (_, value) :: members => max (depth value) (membersDepth members)

end

theorem itemsDepth_le_iff {items : List Json} {n : ℕ} :
    itemsDepth items ≤ n ↔ ∀ d ∈ items, d.depth ≤ n := by
  induction items with
  | nil => simp [itemsDepth]
  | cons d items ih => simp [itemsDepth, ih]

theorem membersDepth_le_iff {members : List (String × Json)} {n : ℕ} :
    membersDepth members ≤ n ↔ ∀ m ∈ members, m.2.depth ≤ n := by
  induction members with
  | nil => simp [membersDepth]
  | cons m members ih => simp [membersDepth, ih]

/-! ### Passing over -/

@[simp] theorem pass_draft (d : Json) : d.draft.pass = .ok () := by
  cases d <;> rfl

/-- Members that leave every state as it is may be left out. -/
theorem foldlM_memberDrafts_filter {σ : Type} {f : σ → Key × Draft → Except Fault σ}
    {p : String → Bool} (h : ∀ s k (d : Json), p k = false → f s (.text k, d.draft) = .ok s)
    (members : List (String × Json)) (s : σ) :
    (memberDrafts members).foldlM f s =
      (memberDrafts (members.filter fun m => p m.1)).foldlM f s := by
  induction members generalizing s with
  | nil => rfl
  | cons m members ih =>
    rw [memberDrafts, List.foldlM_cons, List.filter_cons]
    cases hm : p m.1 with
    | false =>
      rw [h s m.1 m.2 hm]
      exact ih s
    | true =>
      rw [if_pos rfl, memberDrafts, List.foldlM_cons]
      exact bind_congr fun s => ih s

/-! ### Holding -/

/-- No number of the document is too large. -/
def IsFinite (d : Json) : Prop := d.AllNumbers fun l => l.number?.isSome = true

mutual

/-- **A document is held if it is not too deep and its numbers are finite.** -/
theorem hold_draft : ∀ (d : Json) {k : ℕ}, d.IsFinite → k + d.depth ≤ depthLimit →
    d.draft.hold k = .ok ()
  | null, _, _, _ | flag _, _, _, _ | text _, _, _, _ => rfl
  | number l, _, hd, _ => if_pos (hd l (List.mem_singleton_self _))
  | list items, k, hd, hk => by
    rw [depth] at hk
    have hlt : ¬ depthLimit ≤ k := by omega
    have hitems := holdItems_itemDrafts items (k := k + 1) (allNumbers_list.1 hd) (by omega)
    rw [draft, hold, if_neg hlt, hitems]
    rfl
  | object members, k, hd, hk => by
    rw [depth] at hk
    have hlt : ¬ depthLimit ≤ k := by omega
    have hmembers :=
      holdMembers_memberDrafts members (k := k + 1) (allNumbers_object.1 hd) (by omega)
    rw [draft, hold, if_neg hlt, hmembers]
    rfl

theorem holdItems_itemDrafts : ∀ (items : List Json) {k : ℕ}, (∀ d ∈ items, d.IsFinite) →
    k + itemsDepth items ≤ depthLimit → holdItems k (itemDrafts items) = .ok ()
  | [], _, _, _ => rfl
  | d :: ds, k, hd, hk => by
    obtain ⟨hd, hds⟩ := List.forall_mem_cons.1 hd
    rw [itemsDepth] at hk
    rw [itemDrafts, holdItems, hold_draft d hd (by omega)]
    exact holdItems_itemDrafts ds hds (by omega)

theorem holdMembers_memberDrafts : ∀ (members : List (String × Json)) {k : ℕ},
    (∀ m ∈ members, m.2.IsFinite) → k + membersDepth members ≤ depthLimit →
    holdMembers k (memberDrafts members) = .ok ()
  | [], _, _, _ => rfl
  | (key, d) :: rest, k, hd, hk => by
    obtain ⟨hd, hrest⟩ := List.forall_mem_cons.1 hd
    rw [membersDepth] at hk
    rw [memberDrafts, holdMembers, hold_draft d hd (by omega)]
    exact holdMembers_memberDrafts rest hrest (by omega)

end

end ButtonStyle.Json

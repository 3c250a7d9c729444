import ButtonStyle.Proofs.Number.Compact
import ButtonStyle.Proofs.Shape.RoundTrip

/-!
# Values without the signs of zeros

`Shape.plain` takes the signs of the zeros off all numbers of a value, which is what the compact
notation of numbers does to it: where no member is left out for such a sign (`IgnoresSigns`), **what
a lawful shape writes in the compact notation is read as the plain value** (`read_write_compact`).

Of a `Faithful` shape, two values are equal by value exactly when they are plainly the same and
nothing in them is undefined, so that for values that hold numbers only equality by value is
equality of what is written (`write_compact_eq_iff`).
-/

namespace ButtonStyle

open Json (Token)

/-! ### Plain values -/

mutual

/-- A value without the signs of the zeros in it. -/
def Shape.plain : {α : Type} → Shape α → α → α
  | _, .number, x => x.plain
  | _, .text, s => s
  | _, .flag, b => b
  | _, @Shape.choice _ _, a => a
  | _, .list item, as => as.map fun a => item.plain a
  | _, .option value, a => a.map fun a => value.plain a
  | _, .record _ fields parts, a => parts.join (fields.plain (parts.split a))
  | _, .union _ _ ofLeft _ ofRight parts, a =>
    parts.join ((parts.split a).map (fun a => ofLeft.plain a) (fun a => ofRight.plain a))

/-- The values of fields without the signs of the zeros in them. -/
def Fields.plain : {β σ : Type} → Fields β σ → β → β
  | _, _, .nil, () => ()
  | _, _, .cons _ shape _ rest, (a, b) => (shape.plain a, rest.plain b)

end

mutual

/-- No member is left out, or written, for the sign of a zero. -/
def Shape.IgnoresSigns : {α : Type} → Shape α → Prop
  | _, .list item => item.IgnoresSigns
  | _, .option value => value.IgnoresSigns
  | _, .record _ fields _ => fields.IgnoresSigns
  | _, .union _ _ ofLeft _ ofRight _ => ofLeft.IgnoresSigns ∧ ofRight.IgnoresSigns
  | _, _ => True

/-- No field is left out, or written, for the sign of a zero. -/
def Fields.IgnoresSigns : {β σ : Type} → Fields β σ → Prop
  | _, _, .nil => True
  | _, _, .cons _ shape presence rest =>
    (∀ a, presence.unwritten (shape.plain a) = presence.unwritten a) ∧
      shape.IgnoresSigns ∧ rest.IgnoresSigns

end

section Presence

variable {α : Type}

@[simp] theorem Presence.unwritten_required (a : α) : required.unwritten a = false := rfl

@[simp] theorem Presence.unwritten_filledWith (a b : α) : (filledWith a).unwritten b = false := rfl

@[simp] theorem Presence.unwritten_nullable (a : Option α) : nullable.unwritten a = false := rfl

@[simp] theorem Presence.unwritten_optional_plain (value : Shape α) (a : Option α) :
    optional.unwritten ((Shape.option value).plain a) = optional.unwritten a := by
  cases a <;> rfl

end Presence

/-! ### Writing plain values -/

section Write

variable {spell spell' : Number → Json.Literal}

mutual

/-- **A notation that does not write the sign of a zero writes a value as its plain value.** -/
theorem Shape.write_plain (h : ∀ x : Number, spell' x.plain = spell x) : ∀ {α : Type}
    (shape : Shape α), shape.IgnoresSigns →
    ∀ a, shape.write spell' (shape.plain a) = shape.write spell a
  | _, .number, _, x => by
    cases x <;> simp [Shape.write, Shape.plain, Quantity.plain, Quantity.write, h]
  | _, .text, _, _ => rfl
  | _, .flag, _, _ => rfl
  | _, @Shape.choice _ _, _, _ => rfl
  | _, .list item, hs, as => by
    have ih := Shape.write_plain h item hs
    simp only [Shape.write, Shape.plain, List.map_map, Function.comp_def, ih]
  | _, .option value, hs, a => by
    have ih := Shape.write_plain h value hs
    cases a with
    | none => rfl
    | some a => simp only [Shape.write, Shape.plain, Option.map_some, ih]
  | _, .record _ fields parts, hs, a => by
    have ih := Fields.write_plain h fields hs
    simp only [Shape.write, Shape.plain, parts.split_join, ih]
  | _, .union _ left ofLeft right ofRight parts, hs, a => by
    have ihLeft := Shape.write_plain h ofLeft hs.1
    have ihRight := Shape.write_plain h ofRight hs.2
    rw [Shape.write, Shape.write, Shape.plain, parts.split_join]
    cases parts.split a with
    | inl c => simp only [Sum.map_inl, ihLeft]
    | inr c => simp only [Sum.map_inr, ihRight]

theorem Fields.write_plain (h : ∀ x : Number, spell' x.plain = spell x) : ∀ {β σ : Type}
    (fields : Fields β σ), fields.IgnoresSigns →
    ∀ b, fields.write spell' (fields.plain b) = fields.write spell b
  | _, _, .nil, _, () => rfl
  | _, _, .cons key shape presence rest, hs, (a, b) => by
    obtain ⟨hpresence, hshape, hrest⟩ := hs
    simp only [Fields.write, Fields.plain, hpresence, Shape.write_plain h shape hshape,
      Fields.write_plain h rest hrest]

end

end Write

mutual

@[simp] theorem Shape.plain_plain : ∀ {α : Type} (shape : Shape α) (a : α),
    shape.plain (shape.plain a) = shape.plain a
  | _, .number, x => Quantity.plain_plain x
  | _, .text, _ => rfl
  | _, .flag, _ => rfl
  | _, @Shape.choice _ _, _ => rfl
  | _, .list item, as => by
    have ih := Shape.plain_plain item
    simp only [Shape.plain, List.map_map, Function.comp_def, ih]
  | _, .option value, a => by
    have ih := Shape.plain_plain value
    simp only [Shape.plain, Option.map_map, Function.comp_def, ih]
  | _, .record _ fields parts, a => by
    simp only [Shape.plain, parts.split_join, Fields.plain_plain fields]
  | _, .union _ left ofLeft right ofRight parts, a => by
    have ihLeft := Shape.plain_plain ofLeft
    have ihRight := Shape.plain_plain ofRight
    simp only [Shape.plain, parts.split_join]
    cases parts.split a with
    | inl c => simp only [Sum.map_inl, ihLeft]
    | inr c => simp only [Sum.map_inr, ihRight]

theorem Fields.plain_plain : ∀ {β σ : Type} (fields : Fields β σ) (b : β),
    fields.plain (fields.plain b) = fields.plain b
  | _, _, .nil, () => rfl
  | _, _, .cons _ shape _ rest, (a, b) => by
    simp only [Fields.plain, Shape.plain_plain shape, Fields.plain_plain rest]

end

section All

variable {p : Quantity → Bool}

mutual

/-- Whether quantities are as asked does not depend on the signs of zeros. -/
theorem Shape.all_plain (h : ∀ x : Quantity, p x.plain = p x) : ∀ {α : Type} (shape : Shape α)
    (a : α), shape.all p (shape.plain a) = shape.all p a
  | _, .number, x => h x
  | _, .text, _ => rfl
  | _, .flag, _ => rfl
  | _, @Shape.choice _ _, _ => rfl
  | _, .list item, as => by
    have ih := Shape.all_plain h item
    simp only [Shape.all, Shape.plain, List.all_map, Function.comp_def, ih]
  | _, .option _, none => rfl
  | _, .option value, some a => Shape.all_plain h value a
  | _, .record _ fields parts, a => by
    simp only [Shape.all, Shape.plain, parts.split_join, Fields.all_plain h fields]
  | _, .union _ _ ofLeft _ ofRight parts, a => by
    have ihLeft := Shape.all_plain h ofLeft
    have ihRight := Shape.all_plain h ofRight
    simp only [Shape.all, Shape.plain, parts.split_join]
    cases parts.split a with
    | inl c => simp only [Sum.map_inl, ihLeft]
    | inr c => simp only [Sum.map_inr, ihRight]

theorem Fields.all_plain (h : ∀ x : Quantity, p x.plain = p x) : ∀ {β σ : Type}
    (fields : Fields β σ) (b : β), fields.all p (fields.plain b) = fields.all p b
  | _, _, .nil, () => rfl
  | _, _, .cons _ shape _ rest, (a, b) => by
    simp only [Fields.all, Fields.plain, Shape.all_plain h shape, Fields.all_plain h rest]

end

end All

/-- The compact notation, but for the zero that it would not read back. -/
def Number.signedLiteral (x : Number) : Json.Literal :=
  if x.plain = x then x.compactLiteral else x.literal

theorem readsBack_signedLiteral : ReadsBack Number.signedLiteral := by
  intro x
  unfold Number.signedLiteral
  split
  · next h => rw [Number.number?_compactLiteral, h]
  · exact Number.number?_literal x

theorem Number.signedLiteral_plain (x : Number) : x.plain.signedLiteral = x.compactLiteral := by
  rw [signedLiteral, if_pos x.plain_plain, compactLiteral_plain]

/-- **What a lawful shape writes in the compact notation of a value that holds numbers only, it
reads as the plain value.** -/
theorem Shape.read_write_compact {α : Type} {shape : Shape α} (h : shape.isLawful = true)
    (hs : shape.IgnoresSigns) (source : Source) {a : α}
    (ha : shape.all Quantity.isFinite a = true) :
    shape.read source (shape.write Number.compactLiteral a).draft = .ok (shape.plain a) := by
  rw [← Shape.write_plain Number.signedLiteral_plain shape hs]
  rw [← Shape.all_plain Quantity.isFinite_plain] at ha
  exact Shape.read_write readsBack_signedLiteral shape h source ha

/-! ### Equality by value -/

/-- Two values are equal by value exactly when they are plainly the same and nothing in them is
undefined. -/
class Shape.Faithful {α : Type} [BEq α] (shape : Shape α) : Prop where
  beq_iff (a b : α) : (a == b) = true ↔
    shape.plain a = shape.plain b ∧ shape.all Quantity.isDefined a = true

/-- The same for the values of fields, taken together. -/
class Fields.Faithful {β σ : Type} [BEq β] (fields : Fields β σ) : Prop where
  beq_iff (a b : β) : (a == b) = true ↔
    fields.plain a = fields.plain b ∧ fields.all Quantity.isDefined a = true

section Faithful

/-- A value is equal by value to its plain value, if nothing in it is undefined. -/
theorem Shape.plain_beq {α : Type} [BEq α] (shape : Shape α) [h : shape.Faithful] {a : α}
    (ha : shape.all Quantity.isDefined a = true) : (shape.plain a == a) = true := by
  rw [h.beq_iff, Shape.all_plain Quantity.isDefined_plain]
  exact ⟨shape.plain_plain a, ha⟩

instance : Shape.number.Faithful := ⟨fun _ _ => Quantity.beq_iff⟩

instance : Shape.text.Faithful := ⟨fun _ _ => by simp [Shape.plain, Shape.all]⟩

instance : Shape.flag.Faithful := ⟨fun _ _ => by simp [Shape.plain, Shape.all]⟩

instance {α : Type} [Named α] [BEq α] [LawfulBEq α] : (Shape.choice : Shape α).Faithful :=
  ⟨fun _ _ => by simp [Shape.plain, Shape.all]⟩

instance {α : Type} [BEq α] (item : Shape α) [h : item.Faithful] :
    (Shape.list item).Faithful := ⟨fun as bs => by
  rw [Shape.plain, Shape.plain, Shape.all]
  induction as generalizing bs with
  | nil => cases bs <;> simp
  | cons a as ih =>
    cases bs with
    | nil => simp
    | cons b bs => simp [ih, h.beq_iff, and_and_and_comm]⟩

instance {α : Type} [BEq α] (value : Shape α) [h : value.Faithful] :
    (Shape.option value).Faithful := ⟨fun a b => by
  cases a <;> cases b <;> simp [Shape.plain, Shape.all, h.beq_iff]⟩

instance : Fields.nil.Faithful := ⟨fun _ _ => by simp [Fields.all]⟩

@[simp] theorem mk_beq_mk {α β : Type} [BEq α] [BEq β] (a a' : α) (b b' : β) :
    ((a, b) == (a', b')) = (a == a' && b == b') := rfl

instance {α β σ : Type} [BEq α] [BEq β] (key : String) (shape : Shape α) (presence : Presence α)
    (rest : Fields β σ) [h : shape.Faithful] [hrest : rest.Faithful] :
    (Fields.cons key shape presence rest).Faithful := ⟨fun (a, b) (a', b') => by
  simp [Fields.plain, Fields.all, h.beq_iff, hrest.beq_iff, and_and_and_comm]⟩

/-- A record whose values are equal when their parts are. -/
theorem Shape.faithful_record {α β σ : Type} [BEq α] [BEq β] {name : String}
    {fields : Fields β σ} {parts : Parts α β} [hfields : fields.Faithful]
    (h : ∀ a b, (a == b) = (parts.split a == parts.split b)) :
    (Shape.record name fields parts).Faithful := ⟨fun a b => by
  have hjoin : Function.Injective parts.join := Function.LeftInverse.injective parts.split_join
  rw [plain, plain, all, hjoin.eq_iff, h, hfields.beq_iff]⟩

/-- A union whose values are equal when their parts are. -/
theorem Shape.faithful_union {α β γ : Type} [BEq α] [BEq β] [BEq γ] {name left right : String}
    {ofLeft : Shape α} {ofRight : Shape β} {parts : Parts γ (α ⊕ β)} [hl : ofLeft.Faithful]
    [hr : ofRight.Faithful] (h : ∀ a b, (a == b) = (parts.split a == parts.split b)) :
    (Shape.union name left ofLeft right ofRight parts).Faithful := ⟨fun a b => by
  have hjoin : Function.Injective parts.join := Function.LeftInverse.injective parts.split_join
  rw [plain, plain, all, hjoin.eq_iff, h]
  rcases parts.split a with c | c <;> rcases parts.split b with d | d
  · exact (hl.beq_iff c d).trans (and_congr_left' Sum.inl_injective.eq_iff.symm)
  · exact iff_of_false Bool.false_ne_true fun hne => Sum.inl_ne_inr hne.1
  · exact iff_of_false Bool.false_ne_true fun hne => Sum.inr_ne_inl hne.1
  · exact (hr.beq_iff c d).trans (and_congr_left' Sum.inr_injective.eq_iff.symm)⟩

end Faithful

/-- In the compact notation, values that are equal by value are written alike. -/
theorem Shape.write_compact_eq_of_beq {α : Type} [BEq α] {shape : Shape α} [hf : shape.Faithful]
    (hs : shape.IgnoresSigns) {a b : α} (h : (a == b) = true) :
    shape.write Number.compactLiteral a = shape.write Number.compactLiteral b := by
  rw [← Shape.write_plain Number.signedLiteral_plain shape hs, ((hf.beq_iff a b).1 h).1,
    Shape.write_plain Number.signedLiteral_plain shape hs]

/-- **In the compact notation, values that are equal by value are written alike, and no others**, if
they hold numbers only. -/
theorem Shape.write_compact_eq_iff {α : Type} [BEq α] {shape : Shape α} [hf : shape.Faithful]
    (h : shape.isLawful = true) (hs : shape.IgnoresSigns) {a b : α}
    (ha : shape.all Quantity.isFinite a = true) (hb : shape.all Quantity.isFinite b = true) :
    shape.write Number.compactLiteral a = shape.write Number.compactLiteral b ↔
      (a == b) = true := by
  refine ⟨fun heq => (hf.beq_iff a b).2 ⟨?_, ?_⟩, Shape.write_compact_eq_of_beq hs⟩
  · have hread := Shape.read_write_compact h hs .held ha
    rw [heq, Shape.read_write_compact h hs .held hb] at hread
    exact (Except.ok.inj hread).symm
  · exact shape.all_mono (fun _ => Quantity.isDefined_of_isFinite) a ha

/-! ### The numbers of a document -/

/-- Every number of a document is one of those given. -/
def Json.AllNumbers (P : Json.Literal → Prop) (d : Json) : Prop :=
  ∀ l, Token.number l ∈ d.tokens → P l

section Numbers

variable {P : Json.Literal → Prop}

@[simp] theorem Json.allNumbers_text (s : String) : (Json.text s).AllNumbers P := by
  simp [AllNumbers, tokens]

theorem Json.number_mem_itemTokens {l : Json.Literal} {items : List Json} :
    Token.number l ∈ itemTokens items ↔ ∃ d ∈ items, Token.number l ∈ d.tokens := by
  induction items with
  | nil => simp [itemTokens]
  | cons d items ih => simp [itemTokens, ih]

theorem Json.number_mem_memberTokens {l : Json.Literal} {members : List (String × Json)} :
    Token.number l ∈ memberTokens members ↔ ∃ m ∈ members, Token.number l ∈ m.2.tokens := by
  induction members with
  | nil => simp [memberTokens]
  | cons m members ih => simp [memberTokens, ih]

@[simp] theorem Json.allNumbers_list {items : List Json} :
    (Json.list items).AllNumbers P ↔ ∀ d ∈ items, d.AllNumbers P := by
  have h : ∀ l, Token.number l ∈ (Json.list items).tokens ↔
      ∃ d ∈ items, Token.number l ∈ d.tokens := by
    cases items <;> simp [tokens, number_mem_itemTokens]
  simp only [AllNumbers, h]
  exact ⟨fun hl d hd l hm => hl l ⟨d, hd, hm⟩, fun hl l ⟨d, hd, hm⟩ => hl d hd l hm⟩

@[simp] theorem Json.allNumbers_object {members : List (String × Json)} :
    (Json.object members).AllNumbers P ↔ ∀ m ∈ members, m.2.AllNumbers P := by
  have h : ∀ l, Token.number l ∈ (Json.object members).tokens ↔
      ∃ m ∈ members, Token.number l ∈ m.2.tokens := by
    cases members <;> simp [tokens, number_mem_memberTokens]
  simp only [AllNumbers, h]
  exact ⟨fun hl m hm l hmem => hl l ⟨m, hm, hmem⟩, fun hl l ⟨m, hm, hmem⟩ => hl m hm l hmem⟩

variable {spell : Number → Json.Literal}

mutual

/-- **Every number of what is written is the literal of a number.** -/
theorem Shape.allNumbers_write (h : ∀ x, P (spell x)) : ∀ {α : Type} (shape : Shape α) (a : α),
    (shape.write spell a).AllNumbers P
  | _, .number, x => by
    cases x <;> simp [Shape.write, Quantity.write, Json.AllNumbers, Json.tokens, h]
  | _, .text, _ => Json.allNumbers_text _
  | _, .flag, _ => by simp [Shape.write, Json.AllNumbers, Json.tokens]
  | _, @Shape.choice _ _, _ => Json.allNumbers_text _
  | _, .list item, as => by
    have ih := Shape.allNumbers_write h item
    simpa [Shape.write] using fun a _ => ih a
  | _, .option _, none => by simp [Shape.write, Json.AllNumbers, Json.tokens]
  | _, .option value, some a => Shape.allNumbers_write h value a
  | _, .record _ fields parts, a =>
    Json.allNumbers_object.2 (Fields.allNumbers_write h fields (parts.split a))
  | _, .union _ left ofLeft right ofRight parts, a => by
    have ihLeft := Shape.allNumbers_write h ofLeft
    have ihRight := Shape.allNumbers_write h ofRight
    rw [Shape.write]
    cases parts.split a with
    | inl c => simpa using ihLeft c
    | inr c => simpa using ihRight c

theorem Fields.allNumbers_write (h : ∀ x, P (spell x)) : ∀ {β σ : Type} (fields : Fields β σ)
    (b : β), ∀ m ∈ fields.write spell b, m.2.AllNumbers P
  | _, _, .nil, () => nofun
  | _, _, .cons key shape presence rest, (a, b) => by
    have ih := Fields.allNumbers_write h rest b
    unfold Fields.write
    split
    · exact ih
    · exact List.forall_mem_cons.2 ⟨Shape.allNumbers_write h shape a, ih⟩

end

end Numbers

end ButtonStyle

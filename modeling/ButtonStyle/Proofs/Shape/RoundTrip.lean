import ButtonStyle.Proofs.Json.Document
import ButtonStyle.Proofs.Number.Quantity
import ButtonStyle.Proofs.Shape.Finite
import ButtonStyle.Shape.Writer

/-!
# Reading what was written

Whatever a lawful shape writes of a value that holds numbers only, it reads back (`read_write`):
lawful are the shapes whose records name each field once, whose unions have two different names, and
whose options are of values that are never written as null.  With the spelling of the numbers that
is read back, the same holds of the text in both layouts (`ofString_toCompact`,
`ofString_toPretty`).
-/

namespace ButtonStyle

open Json (Draft Gap Key)

/-! ### Lawful shapes -/

/-- Whether a value of a shape is never written as null. -/
def Shape.isSolid : {α : Type} → Shape α → Bool
  | _, .option _ => false
  | _, .number => false
  | _, _ => true

mutual

/-- Whether no two values of a shape that hold numbers only are written alike. -/
def Shape.isLawful : {α : Type} → Shape α → Bool
  | _, .number => true
  | _, .text => true
  | _, .flag => true
  | _, @Shape.choice _ _ => true
  | _, .list item => item.isLawful
  | _, .option value => value.isLawful && value.isSolid
  | _, .record _ fields _ => fields.isLawful
  | _, .union _ left ofLeft right ofRight _ =>
    left != right && ofLeft.isLawful && ofRight.isLawful

/-- Whether the fields have different keys and lawful shapes. -/
def Fields.isLawful : {β σ : Type} → Fields β σ → Bool
  | _, _, .nil => true
  | _, _, .cons key shape _ rest => !rest.keys.contains key && shape.isLawful && rest.isLawful

end

/-! ### Names -/

theorem lookup_map_name {α : Type} (f : α → String) (as : List α) (k : String) :
    (as.map fun a => (f a, a)).lookup k = as.find? fun a => f a == k := by
  induction as with
  | nil => rfl
  | cons a as ih =>
    rw [List.map_cons, List.lookup_cons, List.find?_cons, ih, BEq.comm]

theorem readName_name {α : Type} [named : Named α] (a : α) :
    readName (named.all.map fun a => (Named.name a, a)) (Named.name a) = .ok a := by
  rw [readName, lookup_map_name, Named.find_name]

theorem readName_left (left right : String) :
    readName [(left, false), (right, true)] left = .ok false := by
  simp [readName]

theorem readName_right {left right : String} (h : (left != right) = true) :
    readName [(left, false), (right, true)] right = .ok true := by
  have hne : (right == left) = false := by
    rw [BEq.comm]
    simpa using h
  simp [readName, List.lookup_cons, hne]

theorem readChoice_text {α : Type} (source : Source) (names : List (String × α)) (s : String) :
    source.readChoice names (.text s) = readName names s := by
  cases source <;> rfl

/-! ### Fields -/

namespace Fields

/-- Reads one member of an object. -/
def step {β σ : Type} (fields : Fields β σ) (source : Source) (slots : σ) (m : Key × Draft) :
    Except Fault σ := do
  let key ← Draft.keyText m.1
  match fields.put source key m.2 slots with
  | some slots => slots
  | none => do
    m.2.pass
    return slots

/-- The slots once all that is written of the fields is read. -/
def slots : {β σ : Type} → Fields β σ → β → σ
  | _, _, .nil, () => ()
  | _, _, .cons _ _ presence rest, (a, b) =>
    (if presence.unwritten a then none else some a, rest.slots b)

theorem finish_slots : ∀ {β σ : Type} (fields : Fields β σ) (b : β),
    fields.finish (fields.slots b) = .ok b
  | _, _, .nil, () => rfl
  | _, _, .cons key shape presence rest, (a, b) => by
    have h := finish_slots rest b
    unfold slots finish
    by_cases ha : presence.unwritten a
    · simp only [ha, if_true, presence.inObject_of_unwritten a ha, h]
      rfl
    · simp only [ha, Bool.false_eq_true, if_false, h]
      rfl

/-- The keys of the members that are written are keys of fields. -/
theorem mem_keys_of_mem_write (spell : Number → Json.Literal) :
    ∀ {β σ : Type} (fields : Fields β σ) (b : β), ∀ m ∈ fields.write spell b, m.1 ∈ fields.keys
  | _, _, .nil, () => nofun
  | _, _, .cons key shape presence rest, (a, b) => by
    intro m hm
    have ih := mem_keys_of_mem_write spell rest b m
    rw [keys]
    unfold write at hm
    split at hm
    · exact List.mem_cons_of_mem _ (ih hm)
    · rcases List.mem_cons.1 hm with rfl | hm
      · exact List.mem_cons_self
      · exact List.mem_cons_of_mem _ (ih hm)

section Step

variable {α β σ : Type} {key : String} {shape : Shape α} {presence : Presence α}
  {rest : Fields β σ}

theorem put_cons_of_ne (source : Source) (slot : Option α) (slots : σ) {k : String} (d : Draft)
    (h : k ≠ key) : (cons key shape presence rest).put source k d (slot, slots) =
      (rest.put source k d slots).map ((fun slots => (slot, slots)) <$> ·) := by
  rw [put.eq_def]
  exact if_neg h

theorem step_text (fields : Fields β σ) (source : Source) (slots : σ) (k : String) (d : Draft) :
    fields.step source slots (.text k, d) =
      ((fields.put source k d slots).getD (d.pass >>= fun _ => .ok slots)) := by
  unfold step
  show (match fields.put source k d slots with
    | some slots => slots
    | none => d.pass >>= fun _ => pure slots) = _
  cases fields.put source k d slots <;> rfl

/-- A member of another key leaves the slot of the first field alone. -/
theorem step_cons_of_ne (source : Source) (slot : Option α) (slots : σ) {k : String} (d : Draft)
    (h : k ≠ key) : (cons key shape presence rest).step source (slot, slots) (.text k, d) =
      (fun slots => (slot, slots)) <$> rest.step source slots (.text k, d) := by
  rw [step_text, step_text, put_cons_of_ne source slot slots d h]
  cases rest.put source k d slots with
  | some r => rfl
  | none => cases d.pass <;> rfl

theorem foldlM_step_cons_of_notMem (source : Source) (slot : Option α) (slots : σ)
    (members : List (String × Json)) (h : ∀ m ∈ members, m.1 ≠ key) :
    (Json.memberDrafts members).foldlM ((cons key shape presence rest).step source) (slot, slots) =
      (fun slots => (slot, slots)) <$>
        (Json.memberDrafts members).foldlM (rest.step source) slots := by
  induction members generalizing slots with
  | nil => rfl
  | cons m members ih =>
    have hm := h m List.mem_cons_self
    rw [Json.memberDrafts, List.foldlM_cons, List.foldlM_cons,
      step_cons_of_ne source slot slots m.2.draft hm]
    cases rest.step source slots (.text m.1, m.2.draft) with
    | ok slots => exact ih slots fun m hm => h m (List.mem_cons_of_mem _ hm)
    | error fault => rfl

end Step

end Fields

/-! ### Records, lists, options and unions -/

theorem mapM_map_ok {α β : Type} {f : β → Except Fault α} {g : α → β} {as : List α}
    (h : ∀ a ∈ as, f (g a) = .ok a) : (as.map g).mapM f = .ok as := by
  induction as with
  | nil => rfl
  | cons a as ih =>
    obtain ⟨ha, has⟩ := List.forall_mem_cons.1 h
    rw [List.map_cons, List.mapM_cons, ha, ih has]
    rfl

theorem Json.draft_ne_gap (d : Json) (g : Gap) : d.draft ≠ .gap g := by
  cases d <;> simp [Json.draft]

theorem Json.draft_ne_null {d : Json} (h : d ≠ .null) : d.draft ≠ .null := by
  cases d <;> simp_all [Json.draft]

namespace Shape

theorem read_record {α β σ : Type} (source : Source) (name : String) (fields : Fields β σ)
    (parts : Parts α β) (members : List (Key × Draft)) :
    (Shape.record name fields parts).read source (.object members none) =
      members.foldlM (fields.step source.inner) fields.unread >>= fun slots =>
        parts.join <$> fields.finish slots := by
  rw [Shape.read]
  rfl

/-- A value of a solid shape is not written as null. -/
theorem write_ne_null (spell : Number → Json.Literal) {α : Type} (shape : Shape α)
    (h : shape.isSolid = true) (a : α) : shape.write spell a ≠ .null := by
  cases shape with
  | option | number => cases h
  | union name left ofLeft right ofRight parts =>
    rw [write]
    cases parts.split a <;> exact Json.noConfusion
  | _ => simp [write]

theorem read_option_of_ne {α : Type} (value : Shape α) (source : Source) {d : Draft}
    (hnull : d ≠ .null) (hgap : d ≠ .gap .cutNull) :
    (Shape.option value).read source d = some <$> value.read source d := by
  rw [read]
  · exact hnull
  · exact hgap

/-- When the tag comes first, the value is read for it. -/
theorem read_union {α β γ : Type} (source : Source) (name left : String) (ofLeft : Shape α)
    (right : String) (ofRight : Shape β) (parts : Parts γ (α ⊕ β)) {s : String} {t : Bool}
    (ht : readName [(left, false), (right, true)] s = .ok t) (d : Draft) :
    (Shape.union name left ofLeft right ofRight parts).read source
        (.object [(.text "type", .text s), (.text "value", d)] none) =
      if t then (parts.join ∘ Sum.inr) <$> ofRight.read source.inner d
      else (parts.join ∘ Sum.inl) <$> ofLeft.read source.inner d := by
  rw [read]
  have htag : source.inner.readChoice [(left, false), (right, true)] (.text s) = .ok t := by
    rw [readChoice_text, ht]
  simp only [List.foldlM_cons, List.foldlM_nil, Draft.keyText, Tagged.member, htag, bind,
    Except.bind, if_true, pure, Except.pure]
  rw [if_neg (by decide)]
  generalize (if t then (parts.join ∘ Sum.inr) <$> ofRight.read source.inner d
    else (parts.join ∘ Sum.inl) <$> ofLeft.read source.inner d) = c
  cases c <;> rfl

end Shape

/-! ### Reading what was written -/

/-- Whether the spelling of each number is read back as that number. -/
def ReadsBack (spell : Number → Json.Literal) : Prop := ∀ x, (spell x).number? = some x

section ReadWrite

variable {spell : Number → Json.Literal}

mutual

/-- **What a lawful shape writes of a value that holds numbers only, it reads back.** -/
theorem Shape.read_write (hspell : ReadsBack spell) : ∀ {α : Type} (shape : Shape α),
    shape.isLawful = true → ∀ (source : Source) {a : α}, shape.all Quantity.isFinite a = true →
    shape.read source (shape.write spell a).draft = .ok a
  | _, .number, _, _, a, ha => by
    obtain ⟨x, rfl⟩ := Quantity.isFinite_iff.1 ha
    simp [Shape.read, Shape.write, Quantity.write, Json.draft, hspell x]
  | _, .text, _, _, s, _ => by
    simp [Shape.read, Shape.write, Json.draft]
  | _, .flag, _, _, b, _ => by
    simp [Shape.read, Shape.write, Json.draft]
  | _, @Shape.choice _ _, _, source, a, _ => by
    rw [Shape.read, Shape.write, Json.draft, readChoice_text, readName_name]
  | _, .list item, h, source, as, has => by
    have hitem : ∀ a ∈ as, item.read source.inner (item.write spell a).draft = .ok a :=
      fun a hmem => Shape.read_write hspell item h source.inner (List.all_eq_true.1 has a hmem)
    rw [Shape.write, Json.draft, Json.itemDrafts_eq_map, List.map_map, Shape.read,
      mapM_map_ok (g := Json.draft ∘ fun a => item.write spell a) hitem]
    rfl
  | _, .option value, h, source, a, ha => by
    obtain ⟨hvalue, hsolid⟩ := Bool.and_eq_true_iff.1 h
    cases a with
    | none => simp [Shape.read, Shape.write, Json.draft]
    | some a =>
      have hnull := Json.draft_ne_null (Shape.write_ne_null spell value hsolid a)
      rw [Shape.write, Shape.read_option_of_ne value source hnull (Json.draft_ne_gap _ _),
        Shape.read_write hspell value hvalue source ha]
      rfl
  | _, .record name fields parts, h, source, a, ha => by
    rw [Shape.write, Json.draft, Shape.read_record,
      Fields.foldlM_step_write hspell fields h source.inner ha]
    show parts.join <$> fields.finish (fields.slots (parts.split a)) = .ok a
    rw [Fields.finish_slots]
    exact congrArg Except.ok (parts.join_split a)
  | _, .union name left ofLeft right ofRight parts, h, source, a, ha => by
    obtain ⟨h, hright⟩ := Bool.and_eq_true_iff.1 h
    obtain ⟨hne, hleft⟩ := Bool.and_eq_true_iff.1 h
    have hsplit := parts.join_split a
    rw [Shape.all] at ha
    rw [Shape.write]
    cases hc : parts.split a with
    | inl c =>
      have ht := readName_left left right
      rw [hc] at hsplit ha
      simp only [Json.draft, Json.memberDrafts]
      rw [Shape.read_union source name left ofLeft right ofRight parts ht,
        Shape.read_write hspell ofLeft hleft source.inner ha]
      exact congrArg Except.ok hsplit
    | inr c =>
      have ht := readName_right hne
      rw [hc] at hsplit ha
      simp only [Json.draft, Json.memberDrafts]
      rw [Shape.read_union source name left ofLeft right ofRight parts ht,
        Shape.read_write hspell ofRight hright source.inner ha]
      exact congrArg Except.ok hsplit

/-- Reading what fields wrote fills their slots. -/
theorem Fields.foldlM_step_write (hspell : ReadsBack spell) : ∀ {β σ : Type}
    (fields : Fields β σ), fields.isLawful = true → ∀ (source : Source) {b : β},
    fields.all Quantity.isFinite b = true →
    (Json.memberDrafts (fields.write spell b)).foldlM (fields.step source) fields.unread =
      .ok (fields.slots b)
  | _, _, .nil, _, _, (), _ => rfl
  | _, _, .cons key shape presence rest, h, source, (a, b), hb => by
    obtain ⟨h, hrest⟩ := Bool.and_eq_true_iff.1 h
    obtain ⟨hkey, hshape⟩ := Bool.and_eq_true_iff.1 h
    obtain ⟨hfinite, hb⟩ := Bool.and_eq_true_iff.1 hb
    have hne : ∀ m ∈ rest.write spell b, m.1 ≠ key := by
      rintro m hm rfl
      have := Fields.mem_keys_of_mem_write spell rest b m hm
      simp_all
    have ih := Fields.foldlM_step_write hspell rest hrest source hb
    by_cases ha : presence.unwritten a
    · simp only [Fields.write, Fields.slots, ha, if_true, Fields.unread]
      rw [Fields.foldlM_step_cons_of_notMem source none _ _ hne, ih]
      rfl
    · simp only [Fields.write, Fields.slots, ha, Bool.false_eq_true, if_false, Fields.unread,
        Json.memberDrafts, List.foldlM_cons]
      have hstep : (Fields.cons key shape presence rest).step source (none, rest.unread)
          (.text key, (shape.write spell a).draft) = .ok (some a, rest.unread) := by
        rw [Fields.step_text, Fields.put, if_pos rfl,
          Shape.read_write hspell shape hshape source hfinite]
        rfl
      rw [hstep]
      show List.foldlM _ (some a, rest.unread) _ = _
      rw [Fields.foldlM_step_cons_of_notMem source (some a) _ _ hne, ih]
      rfl

end

section Text

variable {α : Type} {shape : Shape α} {a : α}

/-- The document of a value, wherever blanks stand in its text, is read back. -/
theorem Shape.ofString_of_spells (hspell : ReadsBack spell) (h : shape.isLawful = true)
    (ha : shape.all Quantity.isFinite a = true) {cs : List Char}
    (hcs : Json.Token.Spells cs (shape.write spell a).tokens) :
    shape.ofString (String.ofList cs) = .ok a := by
  rw [ofString, String.toList_ofList, Draft.ofChars_of_spells_tokens hcs]
  simp only [Shape.read_write hspell shape h _ ha]
  rfl

/-- **What a lawful shape writes on one line, it reads back.** -/
theorem Shape.ofString_toCompact (hspell : ReadsBack spell) (h : shape.isLawful = true)
    (ha : shape.all Quantity.isFinite a = true) :
    shape.ofString (shape.write spell a).toCompact = .ok a :=
  Shape.ofString_of_spells hspell h ha (Json.spells_compact _)

/-- **What a lawful shape writes over several lines, it reads back.** -/
theorem Shape.ofString_toPretty (hspell : ReadsBack spell) (h : shape.isLawful = true)
    (ha : shape.all Quantity.isFinite a = true) :
    shape.ofString (shape.write spell a).toPretty = .ok a :=
  Shape.ofString_of_spells hspell h ha (Json.spells_pretty 0 _)

end Text

end ReadWrite

/-- The spelling with a point or an exponent is read back. -/
theorem readsBack_literal : ReadsBack Number.literal := Number.number?_literal

end ButtonStyle

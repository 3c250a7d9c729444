import ButtonStyle.Proofs.Shape.Members

/-!
# Records as lists

The document of a value has other forms (`Shape.HasForm`): any record in it may be the list of its
fields in their order, what would not be written standing there as null, and any union the list of
its tag and its value.  Objects and lists may contain each other.  A list of fields may end early if
the fields that it leaves out are what absent items are.

The document that is written is a form of the value (`hasForm_write`), and so is the one in which
all records and unions are lists (`hasForm_listed`).  **Every form of a value that holds numbers
only is read as that value** (`read_of_hasForm`).
-/

namespace ButtonStyle

open Json (Draft itemDrafts)

/-! ### Forms -/

section Forms

variable (spell : Number → Json.Literal) (declared : String → String → Option Json)

mutual

/-- Whether a document is the one that is written of a value, but for records and unions that are
lists.  `declared` says what absent items are. -/
def Shape.HasForm : {α : Type} → Shape α → Json → α → Prop
  | _, .number, d, x => d = x.write spell
  | _, .text, d, s => d = .text s
  | _, .flag, d, b => d = .flag b
  | _, @Shape.choice _ named, d, a => d = .text (named.name a)
  | _, .list item, d, as =>
    ∃ items, d = .list items ∧ List.Forall₂ (fun d a => item.HasForm d a) items as
  | _, .option value, d, a =>
    match a with
    | none => d = .null
    | some a => value.HasForm d a
  | _, .record name fields parts, d, a =>
    (∃ members, d = .object members ∧ fields.AreMembers members (parts.split a)) ∨
      ∃ items, d = .list items ∧ fields.AreItems name items (parts.split a)
  | _, .union _ left ofLeft right ofRight parts, d, c =>
    match parts.split c with
    | .inl a => ∃ v, ofLeft.HasForm v a ∧
        (d = .object [("type", .text left), ("value", v)] ∨ d = .list [.text left, v])
    | .inr a => ∃ v, ofRight.HasForm v a ∧
        (d = .object [("type", .text right), ("value", v)] ∨ d = .list [.text right, v])

/-- Whether members are those that are written of the fields. -/
def Fields.AreMembers : {β σ : Type} → Fields β σ → List (String × Json) → β → Prop
  | _, _, .nil, members, () => members = []
  | _, _, .cons key shape presence rest, members, (a, b) =>
    if presence.unwritten a then rest.AreMembers members b
    else ∃ d more, members = (key, d) :: more ∧ shape.HasForm d a ∧ rest.AreMembers more b

/-- Whether items are the fields in their order.  The items may end where all fields that follow
are what absent items are. -/
def Fields.AreItems (name : String) : {β σ : Type} → Fields β σ → List Json → β → Prop
  | _, _, .nil, items, () => items = []
  | _, _, .cons key shape _ rest, items, (a, b) =>
    (∃ d more, items = d :: more ∧ shape.HasForm d a ∧ rest.AreItems name more b) ∨
      (items = [] ∧ declared name key = some (shape.write spell a) ∧ rest.AreItems name [] b)

end

mutual

/-- The document of a value in which all records and unions are lists. -/
def Shape.listed : {α : Type} → Shape α → α → Json
  | _, .number, x => x.write spell
  | _, .text, s => .text s
  | _, .flag, b => .flag b
  | _, @Shape.choice _ named, a => .text (named.name a)
  | _, .list item, as => .list (as.map fun a => item.listed a)
  | _, .option value, a =>
    match a with
    | none => .null
    | some a => value.listed a
  | _, .record _ fields parts, a => .list (fields.listed (parts.split a))
  | _, .union _ left ofLeft right ofRight parts, c =>
    match parts.split c with
    | .inl a => .list [.text left, ofLeft.listed a]
    | .inr a => .list [.text right, ofRight.listed a]

/-- The values of the fields in their order. -/
def Fields.listed : {β σ : Type} → Fields β σ → β → List Json
  | _, _, .nil, () => []
  | _, _, .cons _ shape _ rest, (a, b) => shape.listed a :: rest.listed b

end

variable {spell declared}

mutual

/-- The document that is written of a value is one of its forms. -/
theorem Shape.hasForm_write : ∀ {α : Type} (shape : Shape α) (a : α),
    shape.HasForm spell declared (shape.write spell a) a
  | _, .number, _ => rfl
  | _, .text, _ => rfl
  | _, .flag, _ => rfl
  | _, @Shape.choice _ _, _ => rfl
  | _, .list item, as => by
    have hitem := Shape.hasForm_write item
    refine ⟨as.map fun a => item.write spell a, rfl, ?_⟩
    rw [List.forall₂_map_left_iff, List.forall₂_same]
    exact fun a _ => hitem a
  | _, .option _, none => rfl
  | _, .option value, some a => Shape.hasForm_write value a
  | _, .record _ fields parts, a => .inl ⟨_, rfl, Fields.areMembers_write fields (parts.split a)⟩
  | _, .union _ left ofLeft right ofRight parts, c => by
    have hleft := Shape.hasForm_write ofLeft
    have hright := Shape.hasForm_write ofRight
    rw [Shape.write, Shape.HasForm]
    cases parts.split c with
    | inl a => exact ⟨_, hleft a, .inl rfl⟩
    | inr a => exact ⟨_, hright a, .inl rfl⟩

theorem Fields.areMembers_write : ∀ {β σ : Type} (fields : Fields β σ) (b : β),
    fields.AreMembers spell declared (fields.write spell b) b
  | _, _, .nil, () => rfl
  | _, _, .cons key shape presence rest, (a, b) => by
    have hrest := Fields.areMembers_write rest b
    unfold Fields.AreMembers Fields.write
    split
    · exact hrest
    · exact ⟨_, _, rfl, Shape.hasForm_write shape a, hrest⟩

end

mutual

/-- The document in which all records and unions are lists is a form of the value. -/
theorem Shape.hasForm_listed : ∀ {α : Type} (shape : Shape α) (a : α),
    shape.HasForm spell declared (shape.listed spell a) a
  | _, .number, _ => rfl
  | _, .text, _ => rfl
  | _, .flag, _ => rfl
  | _, @Shape.choice _ _, _ => rfl
  | _, .list item, as => by
    have hitem := Shape.hasForm_listed item
    refine ⟨as.map fun a => item.listed spell a, rfl, ?_⟩
    rw [List.forall₂_map_left_iff, List.forall₂_same]
    exact fun a _ => hitem a
  | _, .option _, none => rfl
  | _, .option value, some a => Shape.hasForm_listed value a
  | _, .record name fields parts, a =>
    .inr ⟨_, rfl, Fields.areItems_listed name fields (parts.split a)⟩
  | _, .union _ left ofLeft right ofRight parts, c => by
    have hleft := Shape.hasForm_listed ofLeft
    have hright := Shape.hasForm_listed ofRight
    rw [Shape.listed, Shape.HasForm]
    cases parts.split c with
    | inl a => exact ⟨_, hleft a, .inr rfl⟩
    | inr a => exact ⟨_, hright a, .inr rfl⟩

theorem Fields.areItems_listed (name : String) : ∀ {β σ : Type} (fields : Fields β σ) (b : β),
    fields.AreItems spell declared name (fields.listed spell b) b
  | _, _, .nil, () => rfl
  | _, _, .cons _ shape _ rest, (a, b) =>
    .inl ⟨_, _, rfl, Shape.hasForm_listed shape a, Fields.areItems_listed name rest b⟩

end

/-- No form of a value of a solid shape is null. -/
theorem Shape.ne_null_of_hasForm {α : Type} (shape : Shape α) (hsolid : shape.isSolid = true)
    {d : Json} {a : α} (h : shape.HasForm spell declared d a) : d ≠ .null := by
  rintro rfl
  cases shape with
  | option => cases hsolid
  | union _ _ _ _ _ parts =>
    unfold HasForm at h
    split at h <;> obtain ⟨_, _, h | h⟩ := h <;> cases h
  | record => obtain ⟨_, h, _⟩ | ⟨_, h, _⟩ := h <;> cases h
  | list => obtain ⟨_, h, _⟩ := h; cases h
  | number => cases hsolid
  | text | flag | choice => cases h

/-- Members that are those of fields have the keys of fields. -/
theorem Fields.mem_keys_of_areMembers : ∀ {β σ : Type} (fields : Fields β σ)
    {members : List (String × Json)} {b : β}, fields.AreMembers spell declared members b →
    ∀ m ∈ members, m.1 ∈ fields.keys
  | _, _, .nil, _, (), h => by
    obtain rfl := h
    nofun
  | _, _, .cons key shape presence rest, members, (a, b), h => by
    have ih : ∀ {members}, rest.AreMembers spell declared members b → ∀ m ∈ members,
        m.1 ∈ (Fields.cons key shape presence rest).keys := fun h m hm =>
      List.mem_cons_of_mem _ (mem_keys_of_areMembers rest h m hm)
    unfold AreMembers at h
    split at h
    · exact ih h
    · obtain ⟨d, more, rfl, -, hmore⟩ := h
      exact List.forall_mem_cons.2 ⟨List.mem_cons_self, ih hmore⟩

end Forms

/-! ### Reading forms -/

section Read

variable {spell : Number → Json.Literal} {defaults : Defaults}

/-- A union is read from the list of its tag and its value. -/
theorem Shape.read_union_list {α β γ : Type} (source : Source) (name left : String)
    (ofLeft : Shape α) (right : String) (ofRight : Shape β) (parts : Parts γ (α ⊕ β)) {s : String}
    {t : Bool} (ht : readName [(left, false), (right, true)] s = .ok t) (d : Draft) {c : γ}
    (hc : (if t then (parts.join ∘ Sum.inr) <$> ofRight.read source.inner d
      else (parts.join ∘ Sum.inl) <$> ofLeft.read source.inner d) = .ok c) :
    (Shape.union name left ofLeft right ofRight parts).read source (.list [.text s, d] none) =
      .ok c := by
  have htag : source.inner.readChoice [(left, false), (right, true)] (.text s) = .ok t := by
    rw [readChoice_text, ht]
  have hend : source.afterFields 2 [] none = .ok () := by cases source <;> rfl
  rw [read]
  simp only [htag, hc, hend, bind, Except.bind]
  rfl

mutual

/-- **Every form of a value that holds numbers only is read as that value.** -/
theorem Shape.read_of_hasForm (hspell : ReadsBack spell) : ∀ {α : Type} (shape : Shape α),
    shape.isLawful = true → shape.fillsFinite = true → shape.HasDefaults spell defaults →
    ∀ {source : Source} {d : Json} {a : α}, shape.all Quantity.isFinite a = true →
    shape.HasForm spell defaults.inList d a → shape.read source d.draft = .ok a
  | _, .number, _, _, _, source, d, a, ha, h => by
    obtain rfl := h
    exact Shape.read_write hspell .number rfl source ha
  | _, .text, _, _, _, _, _, _, _, h => by
    obtain rfl := h
    simp [Shape.read, Json.draft]
  | _, .flag, _, _, _, _, _, _, _, h => by
    obtain rfl := h
    simp [Shape.read, Json.draft]
  | _, @Shape.choice _ _, _, _, _, _, _, a, _, h => by
    obtain rfl := h
    rw [Shape.read, Json.draft, readChoice_text, readName_name]
  | _, .list item, hlawful, hfills, hdefaults, source, _, as, has, h => by
    obtain ⟨items, rfl, h⟩ := h
    have hitems : List.Forall₂ (fun d a => item.read source.inner d.draft = .ok a) items as := by
      obtain ⟨hlength, hzip⟩ := List.forall₂_iff_zip.1 h
      refine List.forall₂_iff_zip.2 ⟨hlength, fun {d a} hmem => ?_⟩
      have ha := List.all_eq_true.1 has a (List.of_mem_zip hmem).2
      exact Shape.read_of_hasForm hspell item hlawful hfills hdefaults ha (hzip hmem)
    rw [Json.draft, Json.itemDrafts_eq_map, Shape.read, mapM_draft_of_forall₂ hitems]
    rfl
  | _, .option value, hlawful, hfills, hdefaults, source, d, a, ha, h => by
    obtain ⟨hvalue, hsolid⟩ := Bool.and_eq_true_iff.1 hlawful
    cases a with
    | none =>
      obtain rfl := h
      simp [Shape.read, Json.draft]
    | some a =>
      have hnull := Json.draft_ne_null (Shape.ne_null_of_hasForm value hsolid h)
      rw [Shape.read_option_of_ne value source hnull (Json.draft_ne_gap _ _),
        Shape.read_of_hasForm hspell value hvalue hfills hdefaults ha h]
      rfl
  | _, .record name fields parts, hlawful, hfills, hdefaults, source, _, a, ha, h => by
    obtain ⟨members, rfl, h⟩ | ⟨items, rfl, h⟩ := h
    · rw [Shape.read_record_object,
        Fields.readMembers_of_areMembers hspell fields hlawful hfills hdefaults ha h]
      exact congrArg Except.ok (parts.join_split a)
    · rw [Json.draft, Shape.read,
        Fields.readItems_of_areItems hspell fields hlawful hfills hdefaults ha h]
      exact congrArg Except.ok (parts.join_split a)
  | _, .union name left ofLeft right ofRight parts, hlawful, hfills, hdefaults, source, d, c,
      hfinite, h => by
    obtain ⟨hlawful, hright⟩ := Bool.and_eq_true_iff.1 hlawful
    obtain ⟨hne, hleft⟩ := Bool.and_eq_true_iff.1 hlawful
    obtain ⟨hfillsLeft, hfillsRight⟩ := Bool.and_eq_true_iff.1 hfills
    obtain ⟨-, hdefaultsLeft, hdefaultsRight⟩ := hdefaults
    have hsplit := parts.join_split c
    unfold Shape.HasForm at h
    rw [Shape.all] at hfinite
    cases hc : parts.split c with
    | inl a =>
      rw [hc] at h hsplit hfinite
      obtain ⟨v, hv, hd⟩ := h
      have hread : (parts.join ∘ Sum.inl) <$> ofLeft.read source.inner v.draft = .ok c := by
        rw [Shape.read_of_hasForm hspell ofLeft hleft hfillsLeft hdefaultsLeft hfinite hv]
        exact congrArg Except.ok hsplit
      rcases hd with rfl | rfl
      · exact (Shape.read_union source name left ofLeft right ofRight parts
          (readName_left left right) v.draft).trans hread
      · exact Shape.read_union_list source name left ofLeft right ofRight parts
          (readName_left left right) v.draft hread
    | inr a =>
      rw [hc] at h hsplit hfinite
      obtain ⟨v, hv, hd⟩ := h
      have hread : (parts.join ∘ Sum.inr) <$> ofRight.read source.inner v.draft = .ok c := by
        rw [Shape.read_of_hasForm hspell ofRight hright hfillsRight hdefaultsRight hfinite hv]
        exact congrArg Except.ok hsplit
      rcases hd with rfl | rfl
      · exact (Shape.read_union source name left ofLeft right ofRight parts
          (readName_right hne) v.draft).trans hread
      · exact Shape.read_union_list source name left ofLeft right ofRight parts
          (readName_right hne) v.draft hread

theorem Fields.readMembers_of_areMembers (hspell : ReadsBack spell) : ∀ {β σ : Type}
    (fields : Fields β σ), fields.isLawful = true → fields.fillsFinite = true → ∀ {name : String},
    fields.HasDefaults spell defaults name → ∀ {source : Source}
    {members : List (String × Json)} {b : β}, fields.all Quantity.isFinite b = true →
    fields.AreMembers spell defaults.inList members b →
    fields.readMembers source members = .ok b
  | _, _, .nil, _, _, _, _, _, _, (), _, h => by
    obtain rfl := h
    rfl
  | _, _, .cons key shape presence rest, hlawful, hfills, name, hdefaults, source, members, (a, b),
      hfinite, h => by
    obtain ⟨hlawful, hrest⟩ := Bool.and_eq_true_iff.1 hlawful
    obtain ⟨hkey, hshape⟩ := Bool.and_eq_true_iff.1 hlawful
    obtain ⟨hfills, hfillsRest⟩ := Bool.and_eq_true_iff.1 hfills
    obtain ⟨-, hfillsShape⟩ := Bool.and_eq_true_iff.1 hfills
    obtain ⟨ha, hb⟩ := Bool.and_eq_true_iff.1 hfinite
    obtain ⟨-, hdefaultsShape, hdefaultsRest⟩ := hdefaults
    have hkey : key ∉ rest.keys := by simpa using hkey
    have hne : ∀ {members}, rest.AreMembers spell defaults.inList members b → ∀ m ∈ members,
        m.1 ≠ key := fun h m hm hk =>
      hkey (hk ▸ Fields.mem_keys_of_areMembers rest h m hm)
    unfold Fields.AreMembers at h
    split at h
    · next hunwritten =>
      rw [Fields.readMembers_of_absent source (presence.inObject_of_unwritten a hunwritten) (hne h),
        Fields.readMembers_of_areMembers hspell rest hrest hfillsRest hdefaultsRest hb h]
      rfl
    · obtain ⟨d, more, rfl, hd, hmore⟩ := h
      rw [Fields.readMembers_cons source d (hne hmore),
        Shape.read_of_hasForm hspell shape hshape hfillsShape hdefaultsShape ha hd,
        Fields.readMembers_of_areMembers hspell rest hrest hfillsRest hdefaultsRest hb hmore]
      rfl

/-- The fields are read from their items.  Where the items end, each field that is left is what an
absent item is. -/
theorem Fields.readItems_of_areItems (hspell : ReadsBack spell) : ∀ {β σ : Type}
    (fields : Fields β σ), fields.isLawful = true → fields.fillsFinite = true → ∀ {name : String},
    fields.HasDefaults spell defaults name → ∀ {source : Source} {name' : String}
    {size given : ℕ} {items : List Json} {b : β}, fields.all Quantity.isFinite b = true →
    fields.AreItems spell defaults.inList name items b →
    fields.readItems source name' size given (itemDrafts items) none = .ok b
  | _, _, .nil, _, _, _, _, source, _, _, _, _, (), _, h => by
    obtain rfl := h
    cases source <;> rfl
  | _, _, .cons key shape presence rest, hlawful, hfills, name, hdefaults, source, name', size,
      given, items, (a, b), hfinite, h => by
    obtain ⟨hlawful, hrest⟩ := Bool.and_eq_true_iff.1 hlawful
    obtain ⟨hkey, hshape⟩ := Bool.and_eq_true_iff.1 hlawful
    obtain ⟨hfills, hfillsRest⟩ := Bool.and_eq_true_iff.1 hfills
    obtain ⟨hfilled, hfillsShape⟩ := Bool.and_eq_true_iff.1 hfills
    obtain ⟨ha, hb⟩ := Bool.and_eq_true_iff.1 hfinite
    obtain ⟨⟨-, hinList, -⟩, hdefaultsShape, hdefaultsRest⟩ := hdefaults
    obtain ⟨d, more, rfl, hd, hmore⟩ | ⟨rfl, hdeclared, hmore⟩ := h
    · rw [itemDrafts, Fields.readItems,
        Shape.read_of_hasForm hspell shape hshape hfillsShape hdefaultsShape ha hd]
      simp only [bind, Except.bind,
        Fields.readItems_of_areItems hspell rest hrest hfillsRest hdefaultsRest hb hmore]
      rfl
    · have hnone : rest.readItems source name' size (given + 1) (itemDrafts []) none = .ok b :=
        Fields.readItems_of_areItems hspell rest hrest hfillsRest hdefaultsRest hb hmore
      have habsent : presence.inList = some a := by
        rw [← hinList] at hdeclared
        obtain ⟨a', ha', hwrite⟩ := Option.map_eq_some_iff.1 hdeclared
        have hfinite' := (Option.all_eq_true _ _).1 (Bool.and_eq_true_iff.1 hfilled).2 a' ha'
        rw [ha', Shape.write_inj hspell hshape hfinite' ha hwrite]
      rw [itemDrafts] at hnone ⊢
      rw [Fields.readItems, habsent]
      simp only [bind, Except.bind, hnone]
      rfl

end

end Read

end ButtonStyle

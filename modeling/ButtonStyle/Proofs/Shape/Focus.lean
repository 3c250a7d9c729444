import ButtonStyle.Proofs.Shape.Members

/-!
# Objects within a document

In the document of a value stand the objects of records and unions, each at its place
(`Json.fill`).  Whatever is put in the place of such an object, the whole is read by reading what
stands there: the fault there is the fault of the whole, and the value there becomes part of the
value of the whole (`Shape.Focus`).  **Every object in a document that is written is in such a
place** (`focusesAt`), since a list reads its items one by one, a record the members of its
fields (`Fields.HasMember`), and a union its value after its tag.
-/

namespace ButtonStyle

open Json (Draft)

/-! ### Places -/

/-- What stands around a value in a list or an object. -/
inductive Json.Around
  | item (before after : List Json)
  | member (before : List (String × Json)) (key : String) (after : List (String × Json))

namespace Json

/-- The list or object with `d` in the place that is left open. -/
def Around.fill : Around → Json → Json
  | item before after, d => .list (before ++ d :: after)
  | member before key after, d => .object (before ++ (key, d) :: after)

/-- The document with `d` in a place, which is what stands around it from the outside inwards. -/
def fill (place : List Around) (d : Json) : Json := place.foldr Around.fill d

@[simp] theorem fill_nil (d : Json) : fill [] d = d := rfl

@[simp] theorem fill_cons (around : Around) (place : List Around) (d : Json) :
    fill (around :: place) d = around.fill (fill place d) := rfl

/-- With an object in a place, the whole is a list or an object. -/
theorem exists_fill_object_eq (place : List Around) (members : List (String × Json)) :
    (∃ items, fill place (.object members) = .list items) ∨
      ∃ more, fill place (.object members) = .object more := by
  rcases place with _ | ⟨_ | _, place⟩
  · exact .inr ⟨members, rfl⟩
  · exact .inl ⟨_, rfl⟩
  · exact .inr ⟨_, rfl⟩

theorem fill_object_ne_null (place : List Around) (members : List (String × Json)) :
    fill place (.object members) ≠ .null := by
  rcases exists_fill_object_eq place members with ⟨_, h⟩ | ⟨_, h⟩ <;> exact h ▸ nofun

end Json

open Json (Around fill fill_nil fill_cons)

mutual

/-- The name of the record or union whose object stands at a place. -/
def Shape.recordAt? : {α : Type} → Shape α → List Around → Option String
  | _, .number, _ | _, .text, _ | _, .flag, _ => none
  | _, @Shape.choice _ _, _ => none
  | _, .list item, place =>
    match place with
    | .item _ _ :: place => item.recordAt? place
    | _ => none
  | _, .option value, place => value.recordAt? place
  | _, .record name fields _, place =>
    match place with
    | [] => some name
    | .member _ key _ :: place => fields.recordAt? key place
    | _ => none
  | _, .union name left ofLeft _ ofRight _, place =>
    match place with
    | [] => some name
    | .member before _ _ :: place =>
      match before.lookup "type" with
      | some (.text s) => if s = left then ofLeft.recordAt? place else ofRight.recordAt? place
      | _ => none
    | _ => none

/-- The same for a place within the field of a key. -/
def Fields.recordAt? : {β σ : Type} → Fields β σ → String → List Around → Option String
  | _, _, .nil, _, _ => none
  | _, _, .cons key shape _ rest, k, place =>
    if k = key then shape.recordAt? place else rest.recordAt? k place

end

section Focus

variable {spell : Number → Json.Literal} {defaults : Defaults}

/-! ### A member of a record -/

/-- The field of a key, whose member stands between others: how it is read there, and without the
member, and how it is written for another value. -/
structure Fields.HasMember (spell : Number → Json.Literal) (defaults : Defaults) (name : String)
    {β σ γ : Type} (fields : Fields β σ) (before : List (String × Json)) (key : String)
    (after : List (String × Json)) (shape : Shape γ) (presence : Presence γ) (set : γ → β) :
    Prop where
  isLawful : shape.isLawful = true
  hasDefaults : shape.HasDefaults spell defaults
  yields : presence.Yields (fun x => shape.write spell x) (defaults.inObject name key)
    (defaults.inList name key)
  recordAt? : ∀ place, fields.recordAt? key place = shape.recordAt? place
  read : ∀ (source : Source) (d : Json),
    fields.readMembers source (before ++ (key, d) :: after) = set <$> shape.read source d.draft
  read_of_absent : ∀ (source : Source) {x : γ}, presence.inObject = some x →
    fields.readMembers source (before ++ after) = .ok (set x)
  read_of_missing : ∀ source : Source, presence.inObject = none →
    fields.readMembers source (before ++ after) = .error (.misfit (.missingField key))
  write : ∀ x, fields.write spell (set x) =
    if presence.unwritten x then before ++ after else before ++ (key, shape.write spell x) :: after

/-- The member of another key does not matter for a key that is not among the others. -/
theorem forall_fst_ne_append_cons {before after : List (String × Json)} {key key₀ : String}
    (hkey : key ≠ key₀) (hne : ∀ m ∈ before ++ after, m.1 ≠ key₀) (d : Json) :
    ∀ m ∈ before ++ (key, d) :: after, m.1 ≠ key₀ := by
  simp only [List.forall_mem_append, List.forall_mem_cons] at hne ⊢
  exact ⟨hne.1, hkey, hne.2⟩

namespace Fields.HasMember

variable {α β σ γ : Type} {name key key₀ : String} {before after : List (String × Json)}
  {shape₀ : Shape α} {presence₀ : Presence α} {rest : Fields β σ} {shape : Shape γ}
  {presence : Presence γ} {set : γ → β}

/-- The first field has its member first. -/
theorem head (hspell : ReadsBack spell) {shape : Shape α} {presence : Presence α}
    (hshape : shape.isLawful = true) (hrest : rest.isLawful = true)
    (hdefaults : shape.HasDefaults spell defaults)
    (hyields : presence.Yields (fun a => shape.write spell a) (defaults.inObject name key)
      (defaults.inList name key)) {b : β} (hb : rest.all Quantity.isFinite b = true)
    (hne : ∀ m ∈ rest.write spell b, m.1 ≠ key) :
    (Fields.cons key shape presence rest).HasMember spell defaults name [] key
      (rest.write spell b) shape presence fun a => (a, b) := by
  have hread := fun source => readMembers_write hspell hrest source hb
  refine ⟨hshape, hdefaults, hyields, fun _ => if_pos rfl, ?_, ?_, ?_, fun _ => rfl⟩
  · intro source d
    rw [List.nil_append, readMembers_cons source d hne, hread]
    cases shape.read source d.draft <;> rfl
  · intro source a ha
    rw [List.nil_append, readMembers_of_absent source ha hne, hread]
    rfl
  · intro source hnone
    exact readMembers_of_missing source hnone hne (hread source)

/-- A member stays one behind a field that is not written. -/
theorem cons_of_unwritten
    (h : rest.HasMember spell defaults name before key after shape presence set) {a : α}
    (ha : presence₀.unwritten a = true) (hkey : key ≠ key₀)
    (hne : ∀ m ∈ before ++ after, m.1 ≠ key₀) :
    (Fields.cons key₀ shape₀ presence₀ rest).HasMember spell defaults name before key after shape
      presence fun x => (a, set x) := by
  have hinObject := presence₀.inObject_of_unwritten a ha
  refine ⟨h.isLawful, h.hasDefaults, h.yields, fun place => ?_, ?_, ?_, ?_, fun x => ?_⟩
  · rw [Fields.recordAt?, if_neg hkey, h.recordAt?]
  · intro source d
    rw [readMembers_of_absent source hinObject (forall_fst_ne_append_cons hkey hne d), h.read]
    cases shape.read source d.draft <;> rfl
  · intro source x hx
    rw [readMembers_of_absent source hinObject hne, h.read_of_absent source hx]
    rfl
  · intro source hnone
    rw [readMembers_of_absent source hinObject hne, h.read_of_missing source hnone]
    rfl
  · rw [Fields.write, if_pos ha, h.write]

/-- A member stays one behind a field that is written. -/
theorem cons_of_written (hspell : ReadsBack spell) (hlawful : shape₀.isLawful = true)
    (h : rest.HasMember spell defaults name before key after shape presence set) {a : α}
    (hfinite : shape₀.all Quantity.isFinite a = true) (ha : ¬ presence₀.unwritten a = true)
    (hkey : key ≠ key₀)
    (hne : ∀ m ∈ before ++ after, m.1 ≠ key₀) :
    (Fields.cons key₀ shape₀ presence₀ rest).HasMember spell defaults name
      ((key₀, shape₀.write spell a) :: before) key after shape presence fun x => (a, set x) := by
  have hread := fun source => Shape.read_write hspell shape₀ hlawful source hfinite
  refine ⟨h.isLawful, h.hasDefaults, h.yields, fun place => ?_, ?_, ?_, ?_, fun x => ?_⟩
  · rw [Fields.recordAt?, if_neg hkey, h.recordAt?]
  · intro source d
    rw [List.cons_append, readMembers_cons source _ (forall_fst_ne_append_cons hkey hne d), hread,
      h.read]
    cases shape.read source d.draft <;> rfl
  · intro source x hx
    rw [List.cons_append, readMembers_cons source _ hne, hread, h.read_of_absent source hx]
    rfl
  · intro source hnone
    rw [List.cons_append, readMembers_cons source _ hne, hread, h.read_of_missing source hnone]
    rfl
  · rw [Fields.write, if_neg ha, h.write]
    split <;> rfl

end Fields.HasMember

/-- Each member that is written is that of a field.  Here and below, what is written holds numbers
only. -/
theorem Fields.exists_hasMember (hspell : ReadsBack spell) {name : String} : ∀ {β σ : Type}
    {fields : Fields β σ}, fields.isLawful = true → fields.HasDefaults spell defaults name →
    ∀ {b : β}, fields.all Quantity.isFinite b = true → ∀ {before : List (String × Json)}
      {key : String} {value : Json} {after : List (String × Json)},
    fields.write spell b = before ++ (key, value) :: after →
    ∃ (γ : Type) (shape : Shape γ) (presence : Presence γ) (x : γ) (set : γ → β),
      fields.HasMember spell defaults name before key after shape presence set ∧
        shape.all Quantity.isFinite x = true ∧ value = shape.write spell x
  | _, _, .nil, _, _, (), _, _, _, _, _, h => by
    cases List.append_ne_nil_of_right_ne_nil _ (List.cons_ne_nil _ _) h.symm
  | _, _, .cons key₀ shape₀ presence₀ rest, hlawful, hdefaults, (a, b), hfinite, before, key, value,
      after, h => by
    obtain ⟨hlawful, hrest⟩ := Bool.and_eq_true_iff.1 hlawful
    obtain ⟨hkey₀, hshape₀⟩ := Bool.and_eq_true_iff.1 hlawful
    obtain ⟨hfinite, hb⟩ := Bool.and_eq_true_iff.1 hfinite
    obtain ⟨hyields, hdefaultsShape, hdefaultsRest⟩ := hdefaults
    have hne : ∀ m ∈ rest.write spell b, m.1 ≠ key₀ := by
      rintro m hm rfl
      have := mem_keys_of_mem_write spell rest b m hm
      simp_all
    -- What follows from `hne` for a member that stands in the rest.
    have hmiddle : ∀ {before}, rest.write spell b = before ++ (key, value) :: after →
        key ≠ key₀ ∧ ∀ m ∈ before ++ after, m.1 ≠ key₀ := fun {before} h => by
      rw [h] at hne
      simp only [List.forall_mem_append, List.forall_mem_cons] at hne ⊢
      exact ⟨hne.2.1, hne.1, hne.2.2⟩
    unfold Fields.write at h
    split at h
    · next ha =>
      obtain ⟨hkey, hothers⟩ := hmiddle h
      obtain ⟨γ, shape, presence, x, set, hmember, hvalue⟩ :=
        exists_hasMember hspell hrest hdefaultsRest hb h
      exact ⟨γ, shape, presence, x, _, hmember.cons_of_unwritten ha hkey hothers, hvalue⟩
    · next ha =>
      cases before with
      | nil =>
        obtain ⟨hm, rfl⟩ := List.cons_eq_cons.1 h
        obtain ⟨rfl, rfl⟩ := Prod.mk.inj hm
        exact ⟨_, shape₀, presence₀, a, _,
          .head hspell hshape₀ hrest hdefaultsShape hyields hb hne, hfinite, rfl⟩
      | cons m before =>
        obtain ⟨rfl, hmore⟩ := List.cons_eq_cons.1 h
        obtain ⟨hkey, hothers⟩ := hmiddle hmore
        obtain ⟨γ, shape, presence, x, set, hmember, hvalue⟩ :=
          exists_hasMember hspell hrest hdefaultsRest hb hmore
        exact ⟨γ, shape, presence, x, _,
          hmember.cons_of_written hspell hshape₀ hfinite ha hkey hothers, hvalue⟩

/-! ### Places in documents of values -/

/-- At a place in the documents of a shape stand those of `sub`, which is a record or a union
`name`.  With `y` there, the whole is `put y`. -/
structure Shape.Focus (spell : Number → Json.Literal) (defaults : Defaults) {α β : Type}
    (shape : Shape α) (source : Source) (place : List Around) (name : String) (sub : Shape β)
    (inner : Source) (put : β → α) : Prop where
  isLawful : sub.isLawful = true
  hasDefaults : sub.HasDefaults spell defaults
  isSolid : sub.isSolid = true
  recordAt?_nil : sub.recordAt? [] = some name
  recordAt? : shape.recordAt? place = some name
  read : ∀ members, shape.read source (fill place (.object members)).draft =
    put <$> sub.read inner (Json.object members).draft
  write : ∀ y, shape.write spell (put y) = fill place (sub.write spell y)
  admits : ∀ members, source.Admits (fill place (.object members)) →
    inner.Admits (.object members)

/-- What is written of a record or union is an object. -/
theorem Shape.exists_write_eq_object {α : Type} {shape : Shape α} (hsolid : shape.isSolid = true)
    {name : String} (hname : shape.recordAt? [] = some name) (a : α) :
    ∃ members, shape.write spell a = .object members := by
  cases shape with
  | record => exact ⟨_, rfl⟩
  | union _ _ _ _ _ parts =>
    rw [write]
    cases parts.split a <;> exact ⟨_, rfl⟩
  | option => cases hsolid
  | number | text | flag | choice | list => cases hname

/-- A list whose items are read, but for one of which it is not known, is read by reading that. -/
theorem mapM_append_cons {α β : Type} {f : β → Except Fault α} {g : α → β} {as bs : List α}
    (has : ∀ a ∈ as, f (g a) = .ok a) (hbs : ∀ b ∈ bs, f (g b) = .ok b) (d : β) :
    (as.map g ++ d :: bs.map g).mapM f = (fun y => as ++ y :: bs) <$> f d := by
  induction as with
  | nil =>
    rw [List.map_nil, List.nil_append, List.mapM_cons, mapM_map_ok hbs]
    cases f d <;> rfl
  | cons a as ih =>
    obtain ⟨ha, has⟩ := List.forall_mem_cons.1 has
    rw [List.map_cons, List.cons_append, List.mapM_cons, ha, ih has]
    cases f d <;> rfl

/-- In a list of two stands either the first or the second. -/
theorem pair_eq_append_cons_iff {α : Type} {a b m : α} {before after : List α} :
    [a, b] = before ++ m :: after ↔
      (before = [] ∧ m = a ∧ after = [b]) ∨ (before = [a] ∧ m = b ∧ after = []) := by
  constructor
  · intro h
    rcases before with _ | ⟨a', _ | ⟨b', before⟩⟩
    · obtain ⟨rfl, rfl⟩ := List.cons_eq_cons.1 h
      exact .inl ⟨rfl, rfl, rfl⟩
    · obtain ⟨rfl, h'⟩ := List.cons_eq_cons.1 h
      obtain ⟨rfl, rfl⟩ := List.cons_eq_cons.1 h'
      exact .inr ⟨rfl, rfl, rfl⟩
    · simp at h
  · rintro (⟨rfl, rfl, rfl⟩ | ⟨rfl, rfl, rfl⟩) <;> rfl

namespace Shape.Focus

variable {α β γ δ σ : Type} {source inner : Source} {place : List Around} {name : String}
  {sub : Shape β} {put : β → α}

/-- The outermost object. -/
theorem here {shape : Shape α} (hlawful : shape.isLawful = true)
    (hdefaults : shape.HasDefaults spell defaults) (hsolid : shape.isSolid = true)
    (hname : shape.recordAt? [] = some name) (source : Source) :
    shape.Focus spell defaults source [] name shape source id :=
  ⟨hlawful, hdefaults, hsolid, hname, hname, fun _ => (id_map _).symm, fun _ => rfl,
    fun _ h => h⟩

/-- A place in a value is one in an option of it. -/
theorem option {value : Shape α} (h : value.Focus spell defaults source place name sub inner put) :
    (Shape.option value).Focus spell defaults source place name sub inner (some ∘ put) := by
  refine ⟨h.isLawful, h.hasDefaults, h.isSolid, h.recordAt?_nil, ?_, fun members => ?_, h.write,
    h.admits⟩
  · rw [Shape.recordAt?, h.recordAt?]
  · have hnull := Json.draft_ne_null (Json.fill_object_ne_null place members)
    rw [read_option_of_ne value source hnull (Json.draft_ne_gap _ _), h.read, ← comp_map]

/-- A place in an item is one in the list. -/
theorem item (hspell : ReadsBack spell) {item : Shape α} (hlawful : item.isLawful = true)
    (h : item.Focus spell defaults source.inner place name sub inner put) {as bs : List α}
    (has : (Shape.list item).all Quantity.isFinite as = true)
    (hbs : (Shape.list item).all Quantity.isFinite bs = true) :
    (Shape.list item).Focus spell defaults source
      (.item (as.map fun a => item.write spell a) (bs.map fun b => item.write spell b) :: place)
      name sub inner (fun y => as ++ put y :: bs) := by
  refine ⟨h.isLawful, h.hasDefaults, h.isSolid, h.recordAt?_nil, ?_, fun members => ?_,
    fun y => ?_, fun members hadmits => ?_⟩
  · rw [Shape.recordAt?, h.recordAt?]
  · have hitem : ∀ {as : List α}, (Shape.list item).all Quantity.isFinite as = true → ∀ a ∈ as,
        item.read source.inner (item.write spell a).draft = .ok a := fun has a hmem =>
      Shape.read_write hspell item hlawful source.inner (List.all_eq_true.1 has a hmem)
    rw [fill_cons, Around.fill, Json.draft, Json.itemDrafts_eq_map, Shape.read, List.map_append,
      List.map_map, List.map_cons, List.map_map,
      mapM_append_cons (g := Json.draft ∘ fun a => item.write spell a) (hitem has) (hitem hbs),
      h.read]
    cases sub.read inner (Json.object members).draft <;> rfl
  · rw [Shape.write, List.map_append, List.map_cons, h.write]
    rfl
  · exact h.admits members 
      (Source.admits_of_mem_list hadmits (List.mem_append_right _ List.mem_cons_self))

/-- A place in the value of a field is one in the record. -/
theorem member {fields : Fields δ σ} {parts : Parts γ δ} {recordName key : String}
    {before after : List (String × Json)} {shape : Shape α} {presence : Presence α} {set : α → δ}
    (hmember : fields.HasMember spell defaults recordName before key after shape presence set)
    (h : shape.Focus spell defaults source.inner place name sub inner put) :
    (Shape.record recordName fields parts).Focus spell defaults source
      (.member before key after :: place) name sub inner (parts.join ∘ set ∘ put) := by
  refine ⟨h.isLawful, h.hasDefaults, h.isSolid, h.recordAt?_nil, ?_, fun members => ?_,
    fun y => ?_, fun members hadmits => ?_⟩
  · rw [Shape.recordAt?, hmember.recordAt?, h.recordAt?]
  · rw [fill_cons, Around.fill, read_record_object, hmember.read, h.read, ← comp_map, ← comp_map]
    rfl
  · obtain ⟨members, hobject⟩ : ∃ members, sub.write spell y = .object members :=
      exists_write_eq_object h.isSolid h.recordAt?_nil y
    have hwritten : ¬ presence.unwritten (put y) = true := fun hy => by
      have hnull : shape.write spell (put y) = .null := hmember.yields.2.2 _ hy
      rw [h.write, hobject] at hnull
      exact Json.fill_object_ne_null place members hnull
    rw [Shape.write, Function.comp_apply, parts.split_join, Function.comp_apply, hmember.write,
      if_neg hwritten, h.write]
    rfl
  · exact h.admits members (Source.admits_of_mem_object hadmits (m := (key, _)) (by simp))

/-- A place in the value of a union, for the tag on the left. -/
theorem left {unionName left right : String} {ofLeft : Shape α} {ofRight : Shape γ}
    {parts : Parts δ (α ⊕ γ)}
    (h : ofLeft.Focus spell defaults source.inner place name sub inner put) :
    (Shape.union unionName left ofLeft right ofRight parts).Focus spell defaults source
      (.member [("type", .text left)] "value" [] :: place) name sub inner
      (parts.join ∘ Sum.inl ∘ put) := by
  refine ⟨h.isLawful, h.hasDefaults, h.isSolid, h.recordAt?_nil, ?_, fun members => ?_,
    fun y => ?_, fun members hadmits => ?_⟩
  · simp [Shape.recordAt?, h.recordAt?]
  · refine (read_union source unionName left ofLeft right ofRight parts
      (readName_left left right) (fill place (.object members)).draft).trans ?_
    rw [if_neg Bool.false_ne_true, h.read, ← comp_map]
    rfl
  · simp only [Shape.write, Function.comp_apply, parts.split_join, h.write]
    rfl
  · exact h.admits members (Source.admits_of_mem_object hadmits (m := ("value", _)) (by simp))

/-- A place in the value of a union, for the tag on the right. -/
theorem right {unionName left right : String} (hne : (left != right) = true) {ofLeft : Shape γ}
    {ofRight : Shape α} {parts : Parts δ (γ ⊕ α)}
    (h : ofRight.Focus spell defaults source.inner place name sub inner put) :
    (Shape.union unionName left ofLeft right ofRight parts).Focus spell defaults source
      (.member [("type", .text right)] "value" [] :: place) name sub inner
      (parts.join ∘ Sum.inr ∘ put) := by
  have hright : right ≠ left := fun heq => by simp [heq] at hne
  refine ⟨h.isLawful, h.hasDefaults, h.isSolid, h.recordAt?_nil, ?_, fun members => ?_,
    fun y => ?_, fun members hadmits => ?_⟩
  · simp [Shape.recordAt?, h.recordAt?, hright]
  · refine (read_union source unionName left ofLeft right ofRight parts
      (readName_right hne) (fill place (.object members)).draft).trans ?_
    rw [if_pos rfl, h.read, ← comp_map]
    rfl
  · simp only [Shape.write, Function.comp_apply, parts.split_join, h.write]
    rfl
  · exact h.admits members (Source.admits_of_mem_object hadmits (m := ("value", _)) (by simp))

end Shape.Focus

/-- Whether a record or union stands at a place in each document of a shape that has an object
there. -/
def Shape.FocusesAt (spell : Number → Json.Literal) (defaults : Defaults) (place : List Around)
    {α : Type} (shape : Shape α) : Prop :=
  ∀ (source : Source) {a : α} {members : List (String × Json)},
    shape.all Quantity.isFinite a = true → shape.write spell a = fill place (.object members) →
    ∃ (name : String) (β : Type) (sub : Shape β) (inner : Source) (x : β) (put : β → α),
      shape.Focus spell defaults source place name sub inner put ∧
        sub.all Quantity.isFinite x = true ∧ sub.write spell x = .object members

namespace Shape.FocusesAt

variable {α β γ σ : Type} {place : List Around}

theorem nil (shape : Shape α) (hsolid : shape.isSolid = true) (hlawful : shape.isLawful = true)
    (hdefaults : shape.HasDefaults spell defaults) : shape.FocusesAt spell defaults [] := by
  intro source a members hfinite ha
  have hhere {name : String} (hname : shape.recordAt? [] = some name) :=
    Focus.here hlawful hdefaults hsolid hname source
  cases shape with
  | record | union => exact ⟨_, _, _, source, a, id, hhere rfl, hfinite, ha⟩
  | option | number => cases hsolid
  | text | flag | choice | list => cases ha

/-- There is no object in a number. -/
theorem number : Shape.number.FocusesAt spell defaults place := by
  intro source a members hfinite ha
  obtain ⟨x, rfl⟩ := Quantity.isFinite_iff.1 hfinite
  rcases Json.exists_fill_object_eq place members with ⟨_, h⟩ | ⟨_, h⟩ <;> cases ha.trans h

theorem list (hspell : ReadsBack spell) {item : Shape α} (hlawful : item.isLawful = true)
    (h : item.FocusesAt spell defaults place) (before after : List Json) :
    (Shape.list item).FocusesAt spell defaults (.item before after :: place) := by
  intro source as members hfinite has
  obtain ⟨as, bs, rfl, rfl, hbs⟩ := List.map_eq_append_iff.1 (Json.list.inj has)
  obtain ⟨a, bs, rfl, ha, rfl⟩ := List.map_eq_cons_iff.1 hbs
  simp only [Shape.all, List.all_append, List.all_cons, Bool.and_eq_true] at hfinite
  obtain ⟨hfiniteAs, hfiniteItem, hfiniteBs⟩ := hfinite
  obtain ⟨name, β, sub, inner, x, put, hfocus, hx⟩ := h source.inner hfiniteItem ha
  exact ⟨name, β, sub, inner, x, _, hfocus.item hspell hlawful hfiniteAs hfiniteBs, hx⟩

theorem option {value : Shape α} (h : value.FocusesAt spell defaults place) :
    (Shape.option value).FocusesAt spell defaults place := by
  intro source a members hfinite ha
  cases a with
  | none => exact absurd ha.symm (Json.fill_object_ne_null place members)
  | some a =>
    obtain ⟨name, β, sub, inner, x, put, hfocus, hx⟩ := h source hfinite ha
    exact ⟨name, β, sub, inner, x, _, hfocus.option, hx⟩

theorem record (hspell : ReadsBack spell) {name key : String} {before after : List (String × Json)}
    {fields : Fields β σ} {parts : Parts α β} (hlawful : fields.isLawful = true)
    (hdefaults : fields.HasDefaults spell defaults name)
    (h : ∀ {γ : Type} (shape : Shape γ), shape.isLawful = true →
      shape.HasDefaults spell defaults → shape.FocusesAt spell defaults place) :
    (Shape.record name fields parts).FocusesAt spell defaults
      (.member before key after :: place) := by
  intro source a members hfinite ha
  obtain ⟨γ, shape, presence, x, set, hmember, hfiniteValue, hx⟩ :=
    Fields.exists_hasMember hspell hlawful hdefaults hfinite (Json.object.inj ha)
  obtain ⟨name', β, sub, inner, y, put, hfocus, hy⟩ :=
    h shape hmember.isLawful hmember.hasDefaults source.inner hfiniteValue hx.symm
  exact ⟨name', β, sub, inner, y, _, hfocus.member hmember, hy⟩

theorem union {name left right : String} {ofLeft : Shape α} {ofRight : Shape β}
    {parts : Parts γ (α ⊕ β)} (hne : (left != right) = true)
    (hleft : ofLeft.FocusesAt spell defaults place)
    (hright : ofRight.FocusesAt spell defaults place) (before : List (String × Json)) (key : String)
    (after : List (String × Json)) :
    (Shape.union name left ofLeft right ofRight parts).FocusesAt spell defaults
      (.member before key after :: place) := by
  intro source c members hfinite hmembers
  have htag : ∀ s : String, ("type", Json.text s) ≠ (key, fill place (.object members)) := by
    intro s hs
    rcases Json.exists_fill_object_eq place members with ⟨_, h⟩ | ⟨_, h⟩ <;>
      cases (Prod.mk.inj hs).2.trans h
  rw [Shape.all] at hfinite
  rw [Shape.write] at hmembers
  cases hc : parts.split c with
  | inl a =>
    rw [hc] at hmembers hfinite
    rcases pair_eq_append_cons_iff.1 (Json.object.inj hmembers) with
      ⟨rfl, hm, rfl⟩ | ⟨rfl, hm, rfl⟩
    · exact absurd hm.symm (htag left)
    · obtain ⟨rfl, ha⟩ := Prod.mk.inj hm
      obtain ⟨name', δ, sub, inner, x, put, hfocus, hx⟩ := hleft source.inner hfinite ha.symm
      exact ⟨name', δ, sub, inner, x, _, hfocus.left, hx⟩
  | inr b =>
    rw [hc] at hmembers hfinite
    rcases pair_eq_append_cons_iff.1 (Json.object.inj hmembers) with
      ⟨rfl, hm, rfl⟩ | ⟨rfl, hm, rfl⟩
    · exact absurd hm.symm (htag right)
    · obtain ⟨rfl, hb⟩ := Prod.mk.inj hm
      obtain ⟨name', δ, sub, inner, x, put, hfocus, hx⟩ := hright source.inner hfinite hb.symm
      exact ⟨name', δ, sub, inner, x, _, hfocus.right hne, hx⟩

/-- It is enough to look at solid shapes, as the values of options are solid. -/
theorem of_solid (h : ∀ {β : Type} (shape : Shape β), shape.isSolid = true →
      shape.isLawful = true → shape.HasDefaults spell defaults →
      shape.FocusesAt spell defaults place)
    (shape : Shape α) (hlawful : shape.isLawful = true)
    (hdefaults : shape.HasDefaults spell defaults) : shape.FocusesAt spell defaults place := by
  cases shape with
  | option value =>
    obtain ⟨hvalue, hsolid⟩ := Bool.and_eq_true_iff.1 hlawful
    exact (h value hsolid hvalue hdefaults).option
  | number => exact number
  | text | flag | choice | list | record | union => exact h _ rfl hlawful hdefaults

end Shape.FocusesAt

/-- **At the place of every object in a document stands a record or union.** -/
theorem Shape.focusesAt (hspell : ReadsBack spell) (place : List Around) : ∀ {α : Type}
    (shape : Shape α), shape.isLawful = true → shape.HasDefaults spell defaults →
    shape.FocusesAt spell defaults place := by
  induction place with
  | nil => exact fun shape => FocusesAt.of_solid FocusesAt.nil shape
  | cons around place ih =>
    refine fun shape => FocusesAt.of_solid (fun shape hsolid hlawful hdefaults => ?_) shape
    cases shape with
    | list item =>
      cases around with
      | item before after =>
        have hitem : item.isLawful = true := hlawful
        exact (ih item hitem hdefaults).list hspell hitem before after
      | member => exact fun _ _ _ _ ha => by cases ha
    | record name fields parts =>
      cases around with
      | item => exact fun _ _ _ _ ha => by cases ha
      | member before key after => exact FocusesAt.record hspell hlawful hdefaults ih
    | union name left ofLeft right ofRight parts =>
      obtain ⟨hlawful, hright⟩ := Bool.and_eq_true_iff.1 hlawful
      obtain ⟨hne, hleft⟩ := Bool.and_eq_true_iff.1 hlawful
      obtain ⟨-, hdefaultsLeft, hdefaultsRight⟩ := hdefaults
      cases around with
      | item =>
        intro _ c _ _ hc
        rw [write] at hc
        cases hsplit : parts.split c <;> rw [hsplit] at hc <;> cases hc
      | member before key after =>
        exact FocusesAt.union hne (ih ofLeft hleft hdefaultsLeft)
          (ih ofRight hright hdefaultsRight) before key after
    | option | number => cases hsolid
    | text | flag | choice =>
      cases around <;> exact fun _ _ _ _ ha => by cases ha

end Focus

end ButtonStyle

import ButtonStyle.Proofs.Shape.Denotation

/-!
# The members of a record

What a record makes of an object is read off field by field.  The first field takes the one member
that has its key, and the other fields see the members without it (`readMembers_cons`); if there is
none, the field is what its presence says (`readMembers_of_absent`), and if that says nothing, the
member is missing (`readMembers_of_missing`).

This also goes backwards, whatever the members are: **a field is only ever filled from a member of
its own key, or from what its presence says** (`isFilled_of_readMembers`), and **a key that has
already been read is not read again** (`step_of_repeated`).
-/

namespace ButtonStyle

open Json (Draft Token memberDrafts)

/-! ### Results of texts -/

/-- Whether all texts of a document, wherever blanks stand in them, give the result `r`. -/
def Shape.TextsGive {α : Type} (shape : Shape α) (d : Json) (r : Except Fault α) : Prop :=
  ∀ {cs : List Char}, Token.Spells cs d.tokens → shape.ofString (String.ofList cs) = r

theorem Shape.textsGive_of_read {α : Type} {shape : Shape α} {d : Json} {r : Except Fault α}
    (h : shape.read (.text 0) d.draft = r) : shape.TextsGive d r := by
  intro cs hcs
  rw [ofString, String.toList_ofList, Draft.ofChars_of_spells_tokens hcs]
  simp only [h]
  cases r <;> rfl

theorem exists_ok_of_map_eq_ok {α β : Type} {f : α → β} {r : Except Fault α} {b : β}
    (h : f <$> r = .ok b) : ∃ a, r = .ok a ∧ f a = b := by
  cases r with
  | error fault => cases h
  | ok a => exact ⟨a, rfl, Except.ok.inj h⟩

theorem Json.memberDrafts_append (members more : List (String × Json)) :
    memberDrafts (members ++ more) = memberDrafts members ++ memberDrafts more := by
  induction members with
  | nil => rfl
  | cons m members ih => rw [List.cons_append, memberDrafts, memberDrafts, ih, List.cons_append]

namespace Fields

/-- What the members of an object give for the fields. -/
def readMembers {β σ : Type} (fields : Fields β σ) (source : Source)
    (members : List (String × Json)) : Except Fault β :=
  (memberDrafts members).foldlM (fields.step source) fields.unread >>= fields.finish

end Fields

theorem Shape.read_record_object {α β σ : Type} (source : Source) (name : String)
    (fields : Fields β σ) (parts : Parts α β) (members : List (String × Json)) :
    (Shape.record name fields parts).read source (Json.object members).draft =
      parts.join <$> fields.readMembers source.inner members := by
  rw [Json.draft, read_record, Fields.readMembers, map_bind]

namespace Fields

/-! ### Field by field -/

section Cons

variable {α β σ : Type} {key : String} {shape : Shape α} {presence : Presence α}
  {rest : Fields β σ} {members : List (String × Json)}

/-- The first field takes the first member if no other has its key. -/
theorem readMembers_cons (source : Source) (d : Json) (h : ∀ m ∈ members, m.1 ≠ key) :
    (cons key shape presence rest).readMembers source ((key, d) :: members) =
      shape.read source d.draft >>= fun a =>
        (fun b => (a, b)) <$> rest.readMembers source members := by
  have hstep : (cons key shape presence rest).step source (none, rest.unread)
      (.text key, d.draft) = (fun a => (some a, rest.unread)) <$> shape.read source d.draft := by
    rw [step_text, put, if_pos rfl]
    rfl
  rw [readMembers, memberDrafts, List.foldlM_cons, unread, hstep, bind_map_left, bind_assoc]
  refine bind_congr fun a => ?_
  rw [foldlM_step_cons_of_notMem source (some a) _ members h, bind_map_left, readMembers]
  simp only [finish_some, map_bind]

/-- The first field is what its presence says if no member has its key. -/
theorem readMembers_of_absent (source : Source) {a : α} (ha : presence.inObject = some a)
    (h : ∀ m ∈ members, m.1 ≠ key) :
    (cons key shape presence rest).readMembers source members =
      (fun b => (a, b)) <$> rest.readMembers source members := by
  rw [readMembers, unread, foldlM_step_cons_of_notMem source none _ members h, bind_map_left,
    readMembers]
  simp only [finish_none ha, map_bind]

/-- A member that has to be there is missing. -/
theorem readMembers_of_missing (source : Source) (hnone : presence.inObject = none)
    (h : ∀ m ∈ members, m.1 ≠ key) {b : β} (hrest : rest.readMembers source members = .ok b) :
    (cons key shape presence rest).readMembers source members =
      .error (.misfit (.missingField key)) := by
  have hfinish : ∀ slots, (cons key shape presence rest).finish (none, slots) =
      .error (.misfit (.missingField key)) := fun slots => by
    rw [finish, hnone]
    rfl
  rw [readMembers] at hrest ⊢
  rw [unread, foldlM_step_cons_of_notMem source none _ members h, bind_map_left]
  simp only [hfinish]
  generalize (memberDrafts members).foldlM (rest.step source) rest.unread = slots at hrest ⊢
  cases slots with
  | ok slots => rfl
  | error fault => cases hrest

end Cons

/-- The members that are written are read back. -/
theorem readMembers_write {spell : Number → Json.Literal} (hspell : ReadsBack spell) {β σ : Type}
    {fields : Fields β σ} (hlawful : fields.isLawful = true) (source : Source) {b : β}
    (hb : fields.all Quantity.isFinite b = true) :
    fields.readMembers source (fields.write spell b) = .ok b := by
  rw [readMembers, foldlM_step_write hspell fields hlawful source hb]
  exact finish_slots fields b

/-! ### What has been read -/

/-- When members are read, the other fields read those without the first key, and the slot of the
first field is as before, or was filled from one of the members. -/
theorem foldlM_step_cons_eq_ok {α β σ : Type} {key : String} {shape : Shape α}
    {presence : Presence α} {rest : Fields β σ} {source : Source}
    {members : List (String × Json)} {slot slot' : Option α} {slots slots' : σ}
    (h : (memberDrafts members).foldlM ((cons key shape presence rest).step source) (slot, slots) =
      .ok (slot', slots')) :
    (memberDrafts (members.filter fun m => m.1 ≠ key)).foldlM (rest.step source) slots =
        .ok slots' ∧
      ((slot' = slot ∧ ∀ m ∈ members, m.1 ≠ key) ∨
        ∃ a d, slot' = some a ∧ (key, d) ∈ members ∧ shape.read source d.draft = .ok a) := by
  induction members generalizing slot slots with
  | nil =>
    obtain ⟨rfl, rfl⟩ := Prod.mk.inj (Except.ok.inj h)
    exact ⟨rfl, .inl ⟨rfl, nofun⟩⟩
  | cons m members ih =>
    obtain ⟨k, d⟩ := m
    rw [memberDrafts, List.foldlM_cons] at h
    by_cases hk : k = key
    · subst hk
      rw [List.filter_cons_of_neg (by simp)]
      rw [step_text, put.eq_def] at h
      simp only [if_true, Option.getD_some] at h
      cases slot with
      | some _ => cases h
      | none =>
        cases ha : shape.read source d.draft with
        | error fault => rw [ha] at h; cases h
        | ok a =>
          rw [ha] at h
          obtain ⟨hrest, hslot⟩ := ih h
          refine ⟨hrest, .inr ?_⟩
          rcases hslot with ⟨hslot, -⟩ | ⟨a', d', hslot, hd', ha'⟩
          · exact ⟨a, d, hslot, List.mem_cons_self, ha⟩
          · exact ⟨a', d', hslot, List.mem_cons_of_mem _ hd', ha'⟩
    · rw [List.filter_cons_of_pos (by simpa using hk), memberDrafts, List.foldlM_cons]
      rw [step_cons_of_ne source slot slots d.draft hk] at h
      cases hstep : rest.step source slots (.text k, d.draft) with
      | error fault => rw [hstep] at h; cases h
      | ok slots₁ =>
        rw [hstep] at h
        obtain ⟨hrest, hslot⟩ := ih h
        refine ⟨hrest, hslot.imp ?_ ?_⟩
        · rintro ⟨hslot, hne⟩
          exact ⟨hslot, List.forall_mem_cons.2 ⟨hk, hne⟩⟩
        · rintro ⟨a, d', hslot, hd', ha⟩
          exact ⟨a, d', hslot, List.mem_cons_of_mem _ hd', ha⟩

/-- **A key that has been read is not read again**, whatever stands there for it. -/
theorem step_of_repeated {source : Source} {key : String} (again : Json) : ∀ {β σ : Type}
    (fields : Fields β σ) {members : List (String × Json)} {slots : σ},
    (memberDrafts members).foldlM (fields.step source) fields.unread = .ok slots →
    key ∈ members.map Prod.fst → key ∈ fields.keys →
    fields.step source slots (.text key, again.draft) = .error (.misfit (.duplicateField key))
  | _, _, .nil, _, _, _, _, hkey => by cases hkey
  | _, _, .cons key₀ shape presence rest, members, (slot, slots), h, hmem, hkey => by
    obtain ⟨hrest, hslot⟩ := foldlM_step_cons_eq_ok h
    by_cases hk : key = key₀
    · subst hk
      rcases hslot with ⟨-, hne⟩ | ⟨a, d, rfl, -, -⟩
      · obtain ⟨m, hm, rfl⟩ := List.mem_map.1 hmem
        exact absurd rfl (hne m hm)
      · rw [step_text, put, if_pos rfl]
        rfl
    · have hmem' : key ∈ (members.filter fun m => m.1 ≠ key₀).map Prod.fst := by
        obtain ⟨m, hm, rfl⟩ := List.mem_map.1 hmem
        exact List.mem_map_of_mem (List.mem_filter.2 ⟨hm, by simpa using hk⟩)
      have hkey' : key ∈ rest.keys := List.mem_of_ne_of_mem hk hkey
      rw [step_cons_of_ne source slot slots again.draft hk,
        step_of_repeated again rest hrest hmem' hkey']
      rfl

/-- Whether each value was read from a member of the key of its field, or is what the presence of
the field says. -/
def IsFilled (source : Source) (members : List (String × Json)) :
    {β σ : Type} → Fields β σ → β → Prop
  | _, _, .nil, () => True
  | _, _, .cons key shape presence rest, (a, b) =>
    ((∃ d, (key, d) ∈ members ∧ shape.read source d.draft = .ok a) ∨ presence.inObject = some a) ∧
      rest.IsFilled source members b

theorem IsFilled.mono {source : Source} {members more : List (String × Json)}
    (hmore : members ⊆ more) : ∀ {β σ : Type} {fields : Fields β σ} {b : β},
    fields.IsFilled source members b → fields.IsFilled source more b
  | _, _, .nil, (), _ => trivial
  | _, _, .cons _ _ _ _, (_, _), h => by
    obtain ⟨hslot, hrest⟩ := h
    exact ⟨hslot.imp_left fun ⟨d, hd, ha⟩ => ⟨d, hmore hd, ha⟩, hrest.mono hmore⟩

theorem finish_cons_eq_ok {α β σ : Type} {key : String} {shape : Shape α} {presence : Presence α}
    {rest : Fields β σ} {slot : Option α} {slots : σ} {a : α} {b : β}
    (h : (cons key shape presence rest).finish (slot, slots) = .ok (a, b)) :
    (slot = some a ∨ slot = none ∧ presence.inObject = some a) ∧ rest.finish slots = .ok b := by
  have hsome : ∀ {a' : α}, (fun b => (a', b)) <$> rest.finish slots = .ok (a, b) →
      a' = a ∧ rest.finish slots = .ok b := fun {a'} h => by
    obtain ⟨b', hb', heq⟩ := exists_ok_of_map_eq_ok h
    obtain ⟨rfl, rfl⟩ := Prod.mk.inj heq
    exact ⟨rfl, hb'⟩
  cases slot with
  | some a' =>
    rw [finish_some] at h
    exact (hsome h).imp_left fun ha => .inl (congrArg some ha)
  | none =>
    cases hpresence : presence.inObject with
    | none =>
      rw [finish, hpresence] at h
      cases h
    | some a' =>
      rw [finish_none hpresence] at h
      exact (hsome h).imp_left fun ha => .inr ⟨rfl, congrArg some ha⟩

/-- **A field is only filled from a member of its own key, or from what its presence says.** -/
theorem isFilled_of_readMembers {source : Source} : ∀ {β σ : Type} {fields : Fields β σ}
    {members : List (String × Json)} {b : β}, fields.readMembers source members = .ok b →
    fields.IsFilled source members b
  | _, _, .nil, _, (), _ => trivial
  | _, _, .cons key shape presence rest, members, (a, b), h => by
    rw [readMembers, unread] at h
    cases hslots : (memberDrafts members).foldlM ((cons key shape presence rest).step source)
        (none, rest.unread) with
    | error fault => rw [hslots] at h; cases h
    | ok slots =>
      obtain ⟨slot, slots⟩ := slots
      rw [hslots] at h
      obtain ⟨hrest, hslot⟩ := foldlM_step_cons_eq_ok hslots
      obtain ⟨ha, hb⟩ := finish_cons_eq_ok h
      refine ⟨?_, ?_⟩
      · rcases hslot with ⟨rfl, -⟩ | ⟨a', d, rfl, hd, ha'⟩
        · exact .inr (ha.resolve_left nofun).2
        · obtain rfl := Option.some.inj (ha.resolve_right nofun)
          exact .inl ⟨d, hd, ha'⟩
      · have hread : rest.readMembers source (members.filter fun m => m.1 ≠ key) = .ok b := by
          rw [readMembers, hrest]
          exact hb
        exact (isFilled_of_readMembers hread).mono List.filter_sublist.subset

end Fields

/-! ### What absent fields are -/

/-- What absent fields are, as documents, for the name of a record and the key of a field.  There is
none for a field that has to be there. -/
structure Defaults where
  /-- For a member that an object lacks. -/
  inObject : String → String → Option Json
  /-- For an item that a list ends before. -/
  inList : String → String → Option Json

/-- Whether an absent member is `inObject` and an absent item `inList`, and a value is only left out
when it would be null. -/
def Presence.Yields {α : Type} (presence : Presence α) (write : α → Json)
    (inObject inList : Option Json) : Prop :=
  presence.inObject.map write = inObject ∧ presence.inList.map write = inList ∧
    ∀ a, presence.unwritten a = true → write a = .null

namespace Presence

variable {α : Type} {inObject inList : Option Json}

@[simp] theorem yields_required (write : α → Json) :
    required.Yields write inObject inList ↔ inObject = none ∧ inList = none :=
  ⟨fun ⟨hobject, hlist, _⟩ => ⟨hobject.symm, hlist.symm⟩,
    fun ⟨hobject, hlist⟩ => ⟨hobject.symm, hlist.symm, nofun⟩⟩

@[simp] theorem yields_filledWith (write : α → Json) (a : α) :
    (filledWith a).Yields write inObject inList ↔
      inObject = some (write a) ∧ inList = some (write a) :=
  ⟨fun ⟨hobject, hlist, _⟩ => ⟨hobject.symm, hlist.symm⟩,
    fun ⟨hobject, hlist⟩ => ⟨hobject.symm, hlist.symm, nofun⟩⟩

section Option

variable (spell : Number → Json.Literal) (value : Shape α)

@[simp] theorem yields_nullable :
    nullable.Yields (fun a => (Shape.option value).write spell a) inObject inList ↔
      inObject = some .null ∧ inList = none :=
  ⟨fun ⟨hobject, hlist, _⟩ => ⟨hobject.symm, hlist.symm⟩,
    fun ⟨hobject, hlist⟩ => ⟨hobject.symm, hlist.symm, nofun⟩⟩

@[simp] theorem yields_optional :
    optional.Yields (fun a => (Shape.option value).write spell a) inObject inList ↔
      inObject = some .null ∧ inList = some .null := by
  refine ⟨fun ⟨hobject, hlist, _⟩ => ⟨hobject.symm, hlist.symm⟩,
    fun ⟨hobject, hlist⟩ => ⟨hobject.symm, hlist.symm, fun a ha => ?_⟩⟩
  rw [Option.isNone_iff_eq_none.1 ha]
  rfl

end Option

end Presence

mutual

/-- Whether absent fields are what `defaults` says, in all records of a shape.  A union has to have
its tag and its value. -/
def Shape.HasDefaults (spell : Number → Json.Literal) (defaults : Defaults) :
    {α : Type} → Shape α → Prop
  | _, .number | _, .text | _, .flag => True
  | _, @Shape.choice _ _ => True
  | _, .list item => item.HasDefaults spell defaults
  | _, .option value => value.HasDefaults spell defaults
  | _, .record name fields _ => fields.HasDefaults spell defaults name
  | _, .union name _ ofLeft _ ofRight _ =>
    (defaults.inObject name "type" = none ∧ defaults.inObject name "value" = none) ∧
      ofLeft.HasDefaults spell defaults ∧ ofRight.HasDefaults spell defaults

/-- The same for the fields of a record `name`. -/
def Fields.HasDefaults (spell : Number → Json.Literal) (defaults : Defaults) (name : String) :
    {β σ : Type} → Fields β σ → Prop
  | _, _, .nil => True
  | _, _, .cons key shape presence rest =>
    presence.Yields (fun a => shape.write spell a) (defaults.inObject name key)
        (defaults.inList name key) ∧
      shape.HasDefaults spell defaults ∧ rest.HasDefaults spell defaults name

end

attribute [simp] Shape.HasDefaults Fields.HasDefaults

/-- No two values of a lawful shape that hold numbers only are written alike. -/
theorem Shape.write_inj {spell : Number → Json.Literal} (hspell : ReadsBack spell)
    {α : Type} {shape : Shape α} (hlawful : shape.isLawful = true) {a b : α}
    (ha : shape.all Quantity.isFinite a = true) (hb : shape.all Quantity.isFinite b = true)
    (h : shape.write spell a = shape.write spell b) : a = b := by
  have hread := Shape.read_write hspell shape hlawful .held ha
  rw [h, Shape.read_write hspell shape hlawful .held hb] at hread
  exact (Except.ok.inj hread).symm

end ButtonStyle

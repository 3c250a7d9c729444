import Mathlib.Data.List.Forall2
import Mathlib.Data.List.Permutation
import ButtonStyle.Proofs.Json.Depth

/-!
# The documents of a value

Many documents stand for one value (`Shape.Denotes`): each number may be written in any notation,
the members of a record or union stand in any order, members that the record or union does not know
stand among them, and a field may be absent if its value is what then holds.  The document that is
written is one of them if the value holds numbers only (`denotes_write`).

**Of a lawful shape, every document that stands for a value is read as that value**
(`read_of_denotes`).  The value of a union is read at once after the tag, and held and read later
before the tag; that asks more of the document, so the depth is limited and all its numbers, also
the unknown ones, must be finite.
-/

namespace ButtonStyle

open Json (Draft Key Token memberDrafts)

/-! ### Documents that stand for a value -/

/-- An object with the members `known` among others, in any order; no other has one of `keys`. -/
def Json.Arranges (keys : List String) (known : List (String × Json)) (d : Json) : Prop :=
  ∃ members unknown, d = .object members ∧ members.Perm (known ++ unknown) ∧
    ∀ m ∈ unknown, m.1 ∉ keys

mutual

/-- Whether a document stands for a value. -/
def Shape.Denotes : {α : Type} → Shape α → Json → α → Prop
  | _, .number, d, x => ∃ l y, d = .number l ∧ l.number? = some y ∧ x = .finite y
  | _, .text, d, s => d = .text s
  | _, .flag, d, b => d = .flag b
  | _, @Shape.choice _ named, d, a => d = .text (named.name a)
  | _, .list item, d, as =>
    ∃ items, d = .list items ∧ List.Forall₂ (fun d a => item.Denotes d a) items as
  | _, .option value, d, a =>
    match a with
    | none => d = .null
    | some a => value.Denotes d a
  | _, .record _ fields parts, d, a =>
    ∃ known, fields.Denote known (parts.split a) ∧ d.Arranges fields.keys known
  | _, .union _ left ofLeft right ofRight parts, d, c =>
    match parts.split c with
    | .inl a => ∃ v, ofLeft.Denotes v a ∧
        d.Arranges ["type", "value"] [("type", .text left), ("value", v)]
    | .inr a => ∃ v, ofRight.Denotes v a ∧
        d.Arranges ["type", "value"] [("type", .text right), ("value", v)]

/-- Whether members, in the order of the fields, stand for their values.  A member may be absent if
the value of its field is what then holds. -/
def Fields.Denote : {β σ : Type} → Fields β σ → List (String × Json) → β → Prop
  | _, _, .nil, known, () => known = []
  | _, _, .cons key shape presence rest, known, (a, b) =>
    (presence.inObject = some a ∧ rest.Denote known b) ∨
      ∃ d more, known = (key, d) :: more ∧ shape.Denotes d a ∧ rest.Denote more b

end

/-- An object still arranges its members when they are put in another order and others are added. -/
theorem Json.Arranges.of_perm {keys : List String}
    {known members members' more : List (String × Json)}
    (h : (Json.object members).Arranges keys known) (hperm : members'.Perm (members ++ more))
    (hmore : ∀ m ∈ more, m.1 ∉ keys) : (Json.object members').Arranges keys known := by
  obtain ⟨_, unknown, hd, hmembers, hunknown⟩ := h
  obtain rfl := Json.object.inj hd
  refine ⟨members', unknown ++ more, rfl, ?_, ?_⟩
  · rw [← List.append_assoc]
    exact hperm.trans (hmembers.append_right more)
  · exact List.forall_mem_append.2 ⟨hunknown, hmore⟩

theorem Json.arranges_object (keys : List String) (members : List (String × Json)) :
    (Json.object members).Arranges keys members :=
  ⟨members, [], rfl, by rw [List.append_nil], nofun⟩

mutual

/-- **The document that is written of a value stands for it**, if the value holds numbers only. -/
theorem Shape.denotes_write {spell : Number → Json.Literal} (hspell : ReadsBack spell) :
    ∀ {α : Type} (shape : Shape α) {a : α}, shape.all Quantity.isFinite a = true →
    shape.Denotes (shape.write spell a) a
  | _, .number, _, ha => by
    obtain ⟨x, rfl⟩ := Quantity.isFinite_iff.1 ha
    exact ⟨spell x, x, rfl, hspell x, rfl⟩
  | _, .text, _, _ => rfl
  | _, .flag, _, _ => rfl
  | _, @Shape.choice _ _, _, _ => rfl
  | _, .list item, as, has => by
    refine ⟨as.map fun a => item.write spell a, rfl, ?_⟩
    rw [List.forall₂_map_left_iff, List.forall₂_same]
    exact fun a hmem => Shape.denotes_write hspell item (List.all_eq_true.1 has a hmem)
  | _, .option _, none, _ => rfl
  | _, .option value, some a, ha => Shape.denotes_write hspell value (a := a) ha
  | _, .record _ fields parts, a, ha =>
    ⟨_, Fields.denote_write hspell fields (b := parts.split a) ha, Json.arranges_object _ _⟩
  | _, .union _ left ofLeft right ofRight parts, c, hc => by
    have hleft := fun a => Shape.denotes_write hspell ofLeft (a := a)
    have hright := fun a => Shape.denotes_write hspell ofRight (a := a)
    rw [Shape.all] at hc
    rw [Shape.write, Shape.Denotes]
    cases hsplit : parts.split c with
    | inl a =>
      rw [hsplit] at hc
      exact ⟨_, hleft a hc, Json.arranges_object _ _⟩
    | inr a =>
      rw [hsplit] at hc
      exact ⟨_, hright a hc, Json.arranges_object _ _⟩

theorem Fields.denote_write {spell : Number → Json.Literal} (hspell : ReadsBack spell) :
    ∀ {β σ : Type} (fields : Fields β σ) {b : β}, fields.all Quantity.isFinite b = true →
    fields.Denote (fields.write spell b) b
  | _, _, .nil, (), _ => rfl
  | _, _, .cons key shape presence rest, (a, b), hb => by
    obtain ⟨ha, hb⟩ := Bool.and_eq_true_iff.1 hb
    have hrest := Fields.denote_write hspell rest hb
    unfold Fields.write
    split
    · next hunwritten => exact .inl ⟨presence.inObject_of_unwritten a hunwritten, hrest⟩
    · exact .inr ⟨_, _, rfl, Shape.denotes_write hspell shape ha, hrest⟩

end

/-- No number that is written is too large. -/
theorem Shape.isFinite_write {spell : Number → Json.Literal} (hspell : ReadsBack spell) {α : Type}
    (shape : Shape α) (a : α) : (shape.write spell a).IsFinite :=
  Shape.allNumbers_write (fun x => by rw [hspell x]; rfl) shape a

/-! ### What a source asks of a document -/

namespace Source

/-- Whether a document can be held where it stands. -/
def Admits (d : Json) : Source → Prop
  | text depth => d.IsFinite ∧ depth + d.depth ≤ depthLimit
  | held => True

variable {source : Source}

theorem hold_of_admits {d : Json} (h : source.Admits d) : source.hold d.draft = .ok () := by
  cases source with
  | text depth => exact Json.hold_draft d h.1 h.2
  | held => rfl

theorem admits_of_mem_list {items : List Json} (h : source.Admits (.list items)) {d : Json}
    (hd : d ∈ items) : source.inner.Admits d := by
  cases source with
  | text depth =>
    obtain ⟨hfinite, hdepth⟩ := h
    have hle := Json.itemsDepth_le_iff.1 le_rfl d hd
    rw [Json.depth] at hdepth
    exact ⟨Json.allNumbers_list.1 hfinite d hd, by omega⟩
  | held => trivial

theorem admits_of_mem_object {members : List (String × Json)} (h : source.Admits (.object members))
    {m : String × Json} (hm : m ∈ members) : source.inner.Admits m.2 := by
  cases source with
  | text depth =>
    obtain ⟨hfinite, hdepth⟩ := h
    have hle := Json.membersDepth_le_iff.1 le_rfl m hm
    rw [Json.depth] at hdepth
    exact ⟨Json.allNumbers_object.1 hfinite m hm, by omega⟩
  | held => trivial

end Source

/-! ### Lists and options -/

theorem mapM_draft_of_forall₂ {α : Type} {f : Draft → Except Fault α} {items : List Json}
    {as : List α} (h : List.Forall₂ (fun d a => f d.draft = .ok a) items as) :
    (items.map Json.draft).mapM f = .ok as := by
  induction h with
  | nil => rfl
  | cons ha _ ih =>
    rw [List.map_cons, List.mapM_cons, ha, ih]
    rfl

/-- No document of a value of a solid shape is null. -/
theorem Shape.ne_null_of_denotes {α : Type} (shape : Shape α) (hsolid : shape.isSolid = true)
    {d : Json} {a : α} (h : shape.Denotes d a) : d ≠ .null := by
  rintro rfl
  cases shape with
  | option => cases hsolid
  | union _ _ _ _ _ parts =>
    unfold Denotes at h
    split at h <;> obtain ⟨_, _, _, _, h, _⟩ := h <;> cases h
  | record => obtain ⟨_, _, _, _, h, _⟩ := h; cases h
  | number => cases hsolid
  | list => obtain ⟨_, h, _⟩ := h; cases h
  | text | flag | choice => cases h

/-! ### Records -/

namespace Fields

/-- A member that no field has is passed over. -/
theorem put_of_notMem_keys (source : Source) {k : String} (d : Draft) :
    ∀ {β σ : Type} (fields : Fields β σ) (slots : σ), k ∉ fields.keys →
    fields.put source k d slots = none
  | _, _, .nil, (), _ => rfl
  | _, _, .cons key shape presence rest, (slot, slots), hk => by
    obtain ⟨hne, hrest⟩ := List.ne_and_not_mem_of_not_mem_cons hk
    rw [put_cons_of_ne source slot slots d hne, put_of_notMem_keys source d rest slots hrest]
    rfl

theorem step_of_notMem_keys {β σ : Type} (fields : Fields β σ) (source : Source) (slots : σ)
    {k : String} (d : Json) (hk : k ∉ fields.keys) :
    fields.step source slots (.text k, d.draft) = .ok slots := by
  rw [step_text, put_of_notMem_keys source d.draft fields slots hk, Json.pass_draft]
  rfl

section Cons

variable {α β σ : Type} {key : String} {shape : Shape α} {presence : Presence α}
  {rest : Fields β σ}

theorem finish_some (a : α) (slots : σ) :
    (cons key shape presence rest).finish (some a, slots) =
      (fun b => (a, b)) <$> rest.finish slots := by
  rw [finish]
  rfl

theorem finish_none {a : α} (ha : presence.inObject = some a) (slots : σ) :
    (cons key shape presence rest).finish (none, slots) =
      (fun b => (a, b)) <$> rest.finish slots := by
  rw [finish, ha]
  rfl

/-- The one member of the first field fills its slot, wherever it stands; the other fields see the
same members and pass over it. -/
theorem foldlM_step_cons_of_filter (source : Source) {d : Json} {a : α}
    (ha : shape.read source d.draft = .ok a) (hkey : key ∉ rest.keys)
    {members : List (String × Json)} (hd : members.filter (fun m => m.1 = key) = [(key, d)])
    (slots : σ) :
    (memberDrafts members).foldlM ((cons key shape presence rest).step source) (none, slots) =
      (fun slots => (some a, slots)) <$>
        (memberDrafts members).foldlM (rest.step source) slots := by
  induction members generalizing slots with
  | nil => cases hd
  | cons m members ih =>
    rw [memberDrafts, List.foldlM_cons, List.foldlM_cons]
    rw [List.filter_cons] at hd
    by_cases hm : m.1 = key
    · rw [if_pos (decide_eq_true hm)] at hd
      obtain ⟨rfl, hnone⟩ := List.cons_eq_cons.1 hd
      have hstep : (cons key shape presence rest).step source (none, slots)
          (.text key, d.draft) = .ok (some a, slots) := by
        rw [step_text, put, if_pos rfl, ha]
        rfl
      rw [hstep, step_of_notMem_keys rest source slots d hkey]
      refine foldlM_step_cons_of_notMem source (some a) slots members fun m hm hmkey => ?_
      exact absurd (decide_eq_true hmkey) (List.filter_eq_nil_iff.1 hnone m hm)
    · rw [if_neg (by simpa using hm)] at hd
      rw [step_cons_of_ne source none slots m.2.draft hm]
      cases rest.step source slots (.text m.1, m.2.draft) with
      | ok slots => exact ih hd slots
      | error fault => rfl

end Cons

/-- The keys of members that stand for fields are keys of fields. -/
theorem mem_keys_of_denote : ∀ {β σ : Type} (fields : Fields β σ) {known : List (String × Json)}
    {b : β}, fields.Denote known b → ∀ m ∈ known, m.1 ∈ fields.keys
  | _, _, .nil, _, (), h => by
    obtain rfl := h
    nofun
  | _, _, .cons key shape presence rest, known, (a, b), h => by
    rcases h with ⟨-, h⟩ | ⟨d, more, rfl, -, h⟩
    · exact fun m hm => List.mem_cons_of_mem _ (mem_keys_of_denote rest h m hm)
    · exact List.forall_mem_cons.2 ⟨List.mem_cons_self,
        fun m hm => List.mem_cons_of_mem _ (mem_keys_of_denote rest h m hm)⟩

end Fields

/-! ### Unions -/

section Union

variable {α β γ : Type} (source : Source) (name left : String) (ofLeft : Shape α) (right : String)
  (ofRight : Shape β) (parts : Parts γ (α ⊕ β))

/-- Members other than tag and value are passed over. -/
theorem Shape.read_union_filter (members : List (String × Json)) :
    (Shape.union name left ofLeft right ofRight parts).read source (Json.object members).draft =
      (Shape.union name left ofLeft right ofRight parts).read source
        (Json.object (members.filter fun m => m.1 ∈ ["type", "value"])).draft := by
  rw [Json.draft, Json.draft, read, read]
  refine congrArg (· >>= _) ?_
  refine Json.foldlM_memberDrafts_filter (p := fun k => decide (k ∈ ["type", "value"])) ?_ members _
  intro s k d hk
  have hk : k ≠ "type" ∧ k ≠ "value" := by simpa using hk
  cases s <;> simp [Draft.keyText, Tagged.member, hk, bind, Except.bind] <;> rfl

/-- When the value comes first, it is held and read for the tag later. -/
theorem Shape.read_union_valueFirst {s : String} {t : Bool}
    (ht : readName [(left, false), (right, true)] s = .ok t) {d : Draft}
    (hd : source.inner.hold d = .ok ()) :
    (Shape.union name left ofLeft right ofRight parts).read source
        (.object [(.text "value", d), (.text "type", .text s)] none) =
      if t then (parts.join ∘ Sum.inr) <$> ofRight.read .held d
      else (parts.join ∘ Sum.inl) <$> ofLeft.read .held d := by
  rw [read]
  have htag : source.inner.readChoice [(left, false), (right, true)] (.text s) = .ok t := by
    rw [readChoice_text, ht]
  simp only [List.foldlM_cons, List.foldlM_nil, Draft.keyText, Tagged.member, htag, hd, bind,
    Except.bind, if_true, pure, Except.pure]
  rw [if_neg (by decide)]
  dsimp only
  generalize (if t then (parts.join ∘ Sum.inr) <$> ofRight.read .held d
    else (parts.join ∘ Sum.inl) <$> ofLeft.read .held d) = c
  cases c <;> rfl

/-- A union is read wherever tag and value stand, if its value is read at once and later. -/
theorem Shape.read_union_of_arranges {s : String} {t : Bool}
    (ht : readName [(left, false), (right, true)] s = .ok t) {d v : Json}
    (hd : d.Arranges ["type", "value"] [("type", .text s), ("value", v)])
    (hadmits : source.Admits d) {c : γ}
    (hc : ∀ source : Source, source.Admits v →
      (if t then (parts.join ∘ Sum.inr) <$> ofRight.read source v.draft
        else (parts.join ∘ Sum.inl) <$> ofLeft.read source v.draft) = .ok c) :
    (Shape.union name left ofLeft right ofRight parts).read source d.draft = .ok c := by
  obtain ⟨members, unknown, rfl, hperm, hunknown⟩ := hd
  have hv : source.inner.Admits v :=
    Source.admits_of_mem_object hadmits (m := ("value", v)) (hperm.mem_iff.2 (by simp))
  have hfilter : (members.filter fun m => m.1 ∈ ["type", "value"]).Perm
      [("type", .text s), ("value", v)] := by
    have hnone : unknown.filter (fun m => m.1 ∈ ["type", "value"]) = [] :=
      List.filter_eq_nil_iff.2 fun m hm => by simpa using hunknown m hm
    refine (hperm.filter _).trans (.of_eq ?_)
    rw [List.filter_append, hnone]
    simp
  rw [Shape.read_union_filter]
  rcases List.perm_pair.1 hfilter with h | h
  · rw [h]
    exact (Shape.read_union source name left ofLeft right ofRight parts ht _).trans (hc _ hv)
  · rw [h]
    have hhold := Source.hold_of_admits hv
    exact (Shape.read_union_valueFirst source name left ofLeft right ofRight parts ht hhold).trans
      (hc .held trivial)

end Union

/-! ### Reading what stands for a value -/

mutual

/-- **Of a lawful shape, every document that stands for a value is read as that value.** -/
theorem Shape.read_of_denotes : ∀ {α : Type} (shape : Shape α), shape.isLawful = true →
    ∀ {source : Source} {d : Json} {a : α}, source.Admits d → shape.Denotes d a →
    shape.read source d.draft = .ok a
  | _, .number, _, _, _, _, _, h => by
    obtain ⟨l, x, rfl, hl, rfl⟩ := h
    simp [Shape.read, Json.draft, hl]
  | _, .text, _, _, _, _, _, h => by
    obtain rfl := h
    simp [Shape.read, Json.draft]
  | _, .flag, _, _, _, _, _, h => by
    obtain rfl := h
    simp [Shape.read, Json.draft]
  | _, @Shape.choice _ _, _, _, _, a, _, h => by
    obtain rfl := h
    rw [Shape.read, Json.draft, readChoice_text, readName_name]
  | _, .list item, hlawful, source, _, as, hadmits, h => by
    obtain ⟨items, rfl, h⟩ := h
    have hitems : List.Forall₂ (fun d a => item.read source.inner d.draft = .ok a) items as := by
      refine ((List.forall₂_and_left items as).2 ⟨fun d hd => hd, h⟩).imp fun d a ⟨hd, ha⟩ => ?_
      exact Shape.read_of_denotes item hlawful (Source.admits_of_mem_list hadmits hd) ha
    rw [Json.draft, Json.itemDrafts_eq_map, Shape.read, mapM_draft_of_forall₂ hitems]
    rfl
  | _, .option value, hlawful, source, d, a, hadmits, h => by
    obtain ⟨hvalue, hsolid⟩ := Bool.and_eq_true_iff.1 hlawful
    cases a with
    | none =>
      obtain rfl := h
      simp [Shape.read, Json.draft]
    | some a =>
      have hnull := Json.draft_ne_null (Shape.ne_null_of_denotes value hsolid h)
      rw [Shape.read_option_of_ne value source hnull (Json.draft_ne_gap _ _),
        Shape.read_of_denotes value hvalue hadmits h]
      rfl
  | _, .record name fields parts, hlawful, source, _, a, hadmits, h => by
    obtain ⟨known, hknown, members, unknown, rfl, hperm, hunknown⟩ := h
    have hread := Fields.finish_of_denote fields hlawful
      (fun m hm => Source.admits_of_mem_object hadmits hm) hknown hperm hunknown
    rw [Json.draft, Shape.read_record, ← map_bind, hread]
    exact congrArg Except.ok (parts.join_split a)
  | _, .union name left ofLeft right ofRight parts, hlawful, source, d, c, hadmits, h => by
    obtain ⟨hlawful, hright⟩ := Bool.and_eq_true_iff.1 hlawful
    obtain ⟨hne, hleft⟩ := Bool.and_eq_true_iff.1 hlawful
    have hsplit := parts.join_split c
    unfold Shape.Denotes at h
    cases hc : parts.split c with
    | inl a =>
      rw [hc] at h hsplit
      obtain ⟨v, hv, hd⟩ := h
      refine Shape.read_union_of_arranges source name left ofLeft right ofRight parts
        (readName_left left right) hd hadmits fun source hadmits => ?_
      rw [Shape.read_of_denotes ofLeft hleft hadmits hv]
      exact congrArg Except.ok hsplit
    | inr a =>
      rw [hc] at h hsplit
      obtain ⟨v, hv, hd⟩ := h
      refine Shape.read_union_of_arranges source name left ofLeft right ofRight parts
        (readName_right hne) hd hadmits fun source hadmits => ?_
      rw [Shape.read_of_denotes ofRight hright hadmits hv]
      exact congrArg Except.ok hsplit

/-- The members of a record are read in any order.  The induction is on the fields, and a member
that the first field knows is one of the unknown members for the other fields. -/
theorem Fields.finish_of_denote : ∀ {β σ : Type} (fields : Fields β σ), fields.isLawful = true →
    ∀ {source : Source} {members known unknown : List (String × Json)} {b : β},
    (∀ m ∈ members, source.Admits m.2) → fields.Denote known b →
    members.Perm (known ++ unknown) → (∀ m ∈ unknown, m.1 ∉ fields.keys) →
    ((memberDrafts members).foldlM (fields.step source) fields.unread >>= fields.finish) = .ok b
  | _, _, .nil, _, source, members, _, _, (), _, _, _, _ => by
    rw [Json.foldlM_memberDrafts_filter (p := fun _ => false)
      fun slots k d _ => Fields.step_of_notMem_keys .nil source slots d List.not_mem_nil]
    rw [List.filter_false]
    rfl
  | _, _, .cons key shape presence rest, hlawful, source, members, known, unknown, (a, b),
      hadmits, hknown, hperm, hunknown => by
    obtain ⟨hlawful, hrest⟩ := Bool.and_eq_true_iff.1 hlawful
    obtain ⟨hkey, hshape⟩ := Bool.and_eq_true_iff.1 hlawful
    have hkey : key ∉ rest.keys := by simpa using hkey
    have hunknownKey : ∀ m ∈ unknown, m.1 ≠ key := fun m hm h =>
      hunknown m hm (h ▸ List.mem_cons_self)
    have hunknownRest : ∀ m ∈ unknown, m.1 ∉ rest.keys := fun m hm h =>
      hunknown m hm (List.mem_cons_of_mem _ h)
    have hne : ∀ {known : List (String × Json)}, rest.Denote known b → ∀ m ∈ known ++ unknown,
        m.1 ≠ key := by
      intro known hknown m hm
      rcases List.mem_append.1 hm with hm | hm
      · exact fun h => hkey (h ▸ Fields.mem_keys_of_denote rest hknown m hm)
      · exact hunknownKey m hm
    rcases hknown with ⟨ha, hknown⟩ | ⟨d, more, rfl, hd, hmore⟩
    · have ih := Fields.finish_of_denote rest hrest hadmits hknown hperm hunknownRest
      have habsent : ∀ m ∈ members, m.1 ≠ key := fun m hm => hne hknown m (hperm.mem_iff.1 hm)
      rw [Fields.unread, Fields.foldlM_step_cons_of_notMem source none _ _ habsent]
      simp only [bind_map_left, Fields.finish_none ha, ← map_bind, ih]
      rfl
    · have hperm' : members.Perm (more ++ ((key, d) :: unknown)) :=
        hperm.trans List.perm_middle.symm
      have ih := Fields.finish_of_denote rest hrest hadmits hmore hperm'
        (List.forall_mem_cons.2 ⟨hkey, hunknownRest⟩)
      have hread : shape.read source d.draft = .ok a :=
        Shape.read_of_denotes shape hshape (hadmits (key, d) (hperm.mem_iff.2 (by simp))) hd
      have hfilter : members.filter (fun m => m.1 = key) = [(key, d)] := by
        refine List.perm_singleton.1 ((hperm.filter _).trans (.of_eq ?_))
        rw [List.cons_append, List.filter_cons_of_pos (by simp),
          List.filter_eq_nil_iff.2 (by simpa using hne hmore)]
      rw [Fields.unread, Fields.foldlM_step_cons_of_filter source hread hkey hfilter]
      simp only [bind_map_left, Fields.finish_some, ← map_bind, ih]
      rfl

end

/-- **Of a lawful shape, every text of a document that stands for a value is read as that value**,
wherever blanks stand in it. -/
theorem Shape.ofString_of_denotes {α : Type} (shape : Shape α) (hlawful : shape.isLawful = true)
    {d : Json} {a : α} (hd : shape.Denotes d a) (hfinite : d.IsFinite)
    (hdepth : d.depth ≤ depthLimit) {cs : List Char} (hcs : Token.Spells cs d.tokens) :
    shape.ofString (String.ofList cs) = .ok a := by
  have hadmits : (Source.text 0).Admits d := ⟨hfinite, by omega⟩
  rw [ofString, String.toList_ofList, Draft.ofChars_of_spells_tokens hcs]
  simp only [Shape.read_of_denotes shape hlawful hadmits hd]
  rfl

end ButtonStyle

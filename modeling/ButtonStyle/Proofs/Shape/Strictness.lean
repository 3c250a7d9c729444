import ButtonStyle.Proofs.Shape.Focus

/-!
# Strictness about members

What happens when an object in a document lacks a member, or has one twice, is a matter of that
object alone.  So **reading is strict about every object in the document of a value that holds
numbers only** (`isStrict_of_write`): a member that is removed is missing, unless there is a default
for it; the value read is then that with the default in this one place; and a member that is
repeated, whatever it is the second time, is a duplicate.
-/

namespace ButtonStyle

open Json (Around Draft fill fill_nil memberDrafts)

section Strict

variable {spell : Number → Json.Literal} {defaults : Defaults}

/-- Reading is strict about an object, with these members, at a place of a document: `gives d r`
says that the document `d` gives the result `r`, and `default?` what an absent member is. -/
structure Shape.IsStrict (spell : Number → Json.Literal) {α : Type} (shape : Shape α)
    (gives : Json → Except Fault α → Prop) (place : List Around)
    (members : List (String × Json)) (default? : String → Option Json) : Prop where
  /-- A member that is removed is missing. -/
  missing : ∀ {before key value after}, members = before ++ (key, value) :: after →
    default? key = none →
    gives (fill place (.object (before ++ after))) (.error (.misfit (.missingField key)))
  /-- If there is a default `d`, the value is that with `d` in this place.  A null may be left out
  of its document. -/
  filled : ∀ {before key value after d}, members = before ++ (key, value) :: after →
    default? key = some d →
    ∃ c, gives (fill place (.object (before ++ after))) (.ok c) ∧
      (shape.write spell c = fill place (.object (before ++ (key, d) :: after)) ∨
        d = .null ∧ shape.write spell c = fill place (.object (before ++ after)))
  /-- A member that stands in two places is a duplicate, whatever it is the second time. -/
  repeated : ∀ {before key value between after} (again : Json),
    members = before ++ (key, value) :: (between ++ after) →
    gives (fill place (.object (before ++ (key, value) :: (between ++ (key, again) :: after))))
      (.error (.misfit (.duplicateField key)))

theorem Shape.IsStrict.imp {α : Type} {shape : Shape α}
    {gives gives' : Json → Except Fault α → Prop} {place : List Around}
    {members : List (String × Json)} {default? : String → Option Json}
    (h : shape.IsStrict spell gives place members default?)
    (himp : ∀ {d r}, gives d r → gives' d r) :
    shape.IsStrict spell gives' place members default? where
  missing hmembers hnone := himp (h.missing hmembers hnone)
  filled hmembers hsome := (h.filled hmembers hsome).imp fun _ hc => hc.imp_left himp
  repeated again hmembers := himp (h.repeated again hmembers)

/-- A member that was written and is repeated is a duplicate. -/
theorem Fields.readMembers_of_repeated (hspell : ReadsBack spell) {β σ : Type}
    {fields : Fields β σ} (hlawful : fields.isLawful = true) (source : Source) {b : β}
    (hb : fields.all Quantity.isFinite b = true) {before between after : List (String × Json)}
    {key : String} {value : Json} (again : Json)
    (h : fields.write spell b = before ++ (key, value) :: (between ++ after)) :
    fields.readMembers source (before ++ (key, value) :: (between ++ (key, again) :: after)) =
      .error (.misfit (.duplicateField key)) := by
  have hwritten : fields.write spell b = (before ++ (key, value) :: between) ++ after := by
    rw [h, List.append_assoc, List.cons_append]
  have hall := Fields.foldlM_step_write hspell fields hlawful source hb
  rw [hwritten, Json.memberDrafts_append, List.foldlM_append] at hall
  rw [Fields.readMembers, ← List.cons_append, ← List.append_assoc, Json.memberDrafts_append,
    List.foldlM_append]
  cases hslots : (memberDrafts (before ++ (key, value) :: between)).foldlM (fields.step source)
      fields.unread with
  | error fault =>
    rw [hslots] at hall
    cases hall
  | ok slots =>
    have hkey : key ∈ fields.keys :=
      mem_keys_of_mem_write spell fields b (key, value) (by rw [h]; simp)
    have hread : key ∈ (before ++ (key, value) :: between).map Prod.fst := by simp
    have hstep := step_of_repeated again fields hslots hread hkey
    show (List.foldlM _ slots _ >>= fields.finish) = _
    rw [memberDrafts, List.foldlM_cons, hstep]
    rfl

/-! ### Objects on their own -/

/-- Reading is strict about the object of a record. -/
theorem Shape.isStrict_record (hspell : ReadsBack spell) {α β σ : Type} {name : String}
    {fields : Fields β σ} {parts : Parts α β} (hlawful : fields.isLawful = true)
    (hdefaults : fields.HasDefaults spell defaults name) (source : Source) {a : α}
    (ha : fields.all Quantity.isFinite (parts.split a) = true) :
    (Shape.record name fields parts).IsStrict spell
      (fun d r => (Shape.record name fields parts).read source d.draft = r) []
      (fields.write spell (parts.split a)) (defaults.inObject name) where
  missing {before key value after} hmembers hnone := by
    obtain ⟨γ, shape, presence, x, set, hmember, -⟩ :=
      Fields.exists_hasMember hspell hlawful hdefaults ha hmembers
    have hpresence : presence.inObject = none := by
      rw [← hmember.yields.1] at hnone
      exact Option.map_eq_none_iff.1 hnone
    rw [fill_nil, read_record_object, hmember.read_of_missing source.inner hpresence]
    rfl
  filled {before key value after d} hmembers hsome := by
    obtain ⟨γ, shape, presence, x, set, hmember, -⟩ :=
      Fields.exists_hasMember hspell hlawful hdefaults ha hmembers
    rw [← hmember.yields.1] at hsome
    obtain ⟨y, hpresence, rfl⟩ := Option.map_eq_some_iff.1 hsome
    refine ⟨parts.join (set y), ?_, ?_⟩
    · rw [fill_nil, read_record_object, hmember.read_of_absent source.inner hpresence]
      rfl
    · rw [write, parts.split_join, hmember.write]
      by_cases hy : presence.unwritten y = true
      · exact .inr ⟨hmember.yields.2.2 y hy, by rw [if_pos hy]; rfl⟩
      · exact .inl (by rw [if_neg hy]; rfl)
  repeated again hmembers := by
    rw [fill_nil, read_record_object,
      Fields.readMembers_of_repeated hspell hlawful source.inner ha again hmembers]
    rfl

namespace Tagged

variable {τ γ : Type} (readTag : Draft → Except Fault τ)
  (readValue : τ → Source → Draft → Except Fault γ) (source : Source)

/-- Reads one member of an object. -/
def step (read : Tagged τ γ) (m : Json.Key × Draft) : Except Fault (Tagged τ γ) := do
  let key ← Draft.keyText m.1
  read.member readTag readValue source key m.2

variable {readTag readValue source} {t : τ} {c : γ}

theorem step_type {d : Draft} (h : readTag d = .ok t) :
    step readTag readValue source nothing (.text "type", d) = .ok (tag t) := by
  show member readTag readValue source "type" d nothing = _
  rw [member, if_pos rfl, h]
  rfl

theorem step_valueFirst {d : Draft} (h : source.hold d = .ok ()) :
    step readTag readValue source nothing (.text "value", d) = .ok (value d) := by
  show member readTag readValue source "value" d nothing = _
  rw [member, if_neg (by decide), if_pos rfl, h]
  rfl

theorem step_value {d : Draft} (h : readValue t source d = .ok c) :
    step readTag readValue source (tag t) (.text "value", d) = .ok (both c) := by
  show member readTag readValue source "value" d (tag t) = _
  rw [member, if_neg (by decide), if_pos rfl, h]
  rfl

/-- There is nothing after tag and value. -/
theorem step_again {key : String} (hkey : key = "type" ∨ key = "value") (d : Draft) :
    step readTag readValue source (both c) (.text key, d) =
      .error (.misfit (.duplicateField key)) :=
  if_pos hkey

end Tagged

section Union

variable {α β γ : Type} (source : Source) (name left : String) (ofLeft : Shape α) (right : String)
  (ofRight : Shape β) (parts : Parts γ (α ⊕ β))

/-- Reads one member of the object of a union. -/
def Shape.unionStep : Tagged Bool γ → Json.Key × Draft → Except Fault (Tagged Bool γ) :=
  Tagged.step (fun d => source.inner.readChoice [(left, false), (right, true)] d)
    (fun t source d => if t then (parts.join ∘ Sum.inr) <$> ofRight.read source d
      else (parts.join ∘ Sum.inl) <$> ofLeft.read source d) source.inner

theorem Shape.read_union_object (members : List (String × Json)) :
    (Shape.union name left ofLeft right ofRight parts).read source (Json.object members).draft =
      (memberDrafts members).foldlM (unionStep source left ofLeft right ofRight parts) .nothing >>=
        Tagged.finish := by
  rw [Json.draft, read]
  rfl

/-- Reading is strict about an object with the tag `s` and the value `v`. -/
theorem Shape.isStrict_union_object {s : String} {t : Bool}
    (ht : readName [(left, false), (right, true)] s = .ok t) {v : Json} {c : γ}
    (hhold : source.inner.hold v.draft = .ok ())
    (hc : (if t then (parts.join ∘ Sum.inr) <$> ofRight.read source.inner v.draft
      else (parts.join ∘ Sum.inl) <$> ofLeft.read source.inner v.draft) = .ok c)
    (htype : defaults.inObject name "type" = none)
    (hvalue : defaults.inObject name "value" = none) :
    (Shape.union name left ofLeft right ofRight parts).IsStrict spell
      (fun d r => (Shape.union name left ofLeft right ofRight parts).read source d.draft = r) []
      [("type", .text s), ("value", v)] (defaults.inObject name) := by
  have htag : source.inner.readChoice [(left, false), (right, true)] (Json.text s).draft =
      .ok t := by
    rw [Json.draft, readChoice_text, ht]
  have hheld : unionStep source left ofLeft right ofRight parts .nothing (.text "value", v.draft) =
      .ok (.value v.draft) := Tagged.step_valueFirst hhold
  have htagged : unionStep source left ofLeft right ofRight parts .nothing
      (.text "type", (Json.text s).draft) = .ok (.tag t) := Tagged.step_type htag
  have hboth : unionStep source left ofLeft right ofRight parts (.tag t)
      (.text "value", v.draft) = .ok (.both c) := Tagged.step_value hc
  constructor
  · intro before key value after hmembers _
    rw [fill_nil, read_union_object]
    rcases pair_eq_append_cons_iff.1 hmembers with ⟨rfl, hm, rfl⟩ | ⟨rfl, hm, rfl⟩
    · obtain ⟨rfl, -⟩ := Prod.mk.inj hm
      rw [List.nil_append, memberDrafts, List.foldlM_cons, hheld]
      rfl
    · obtain ⟨rfl, -⟩ := Prod.mk.inj hm
      rw [List.append_nil, memberDrafts, List.foldlM_cons, htagged]
      rfl
  · intro before key value after d hmembers hsome
    rcases pair_eq_append_cons_iff.1 hmembers with ⟨-, hm, -⟩ | ⟨-, hm, -⟩
    · obtain ⟨rfl, -⟩ := Prod.mk.inj hm
      cases htype.symm.trans hsome
    · obtain ⟨rfl, -⟩ := Prod.mk.inj hm
      cases hvalue.symm.trans hsome
  · intro before key value between after again hmembers
    have hagain : ∀ key, key = "type" ∨ key = "value" →
        unionStep source left ofLeft right ofRight parts (.both c) (.text key, again.draft) =
          .error (.misfit (.duplicateField key)) := fun key hkey => Tagged.step_again hkey _
    rw [fill_nil, read_union_object]
    rcases pair_eq_append_cons_iff.1 hmembers with ⟨rfl, hm, hrest⟩ | ⟨rfl, hm, hrest⟩
    · obtain ⟨rfl, rfl⟩ := Prod.mk.inj hm
      rw [List.nil_append, memberDrafts, List.foldlM_cons, htagged]
      rcases List.append_eq_singleton_iff.1 hrest with ⟨rfl, rfl⟩ | ⟨rfl, rfl⟩
      · rfl
      · simp only [List.cons_append, List.nil_append, memberDrafts, List.foldlM_cons, bind,
          Except.bind, hboth, hagain _ (.inl rfl)]
    · obtain ⟨rfl, rfl⟩ := Prod.mk.inj hm
      obtain ⟨rfl, rfl⟩ := List.append_eq_nil_iff.1 hrest
      simp only [List.cons_append, List.nil_append, memberDrafts, List.foldlM_cons, bind,
        Except.bind, htagged, hboth, hagain _ (.inr rfl)]

end Union

/-- Reading is strict about the object of a union. -/
theorem Shape.isStrict_union (hspell : ReadsBack spell) {α β γ : Type} {name left right : String}
    {ofLeft : Shape α} {ofRight : Shape β} {parts : Parts γ (α ⊕ β)}
    (hlawful : (Shape.union name left ofLeft right ofRight parts).isLawful = true)
    (hdefaults : (Shape.union name left ofLeft right ofRight parts).HasDefaults spell defaults)
    {source : Source} {c : γ} {members : List (String × Json)}
    (hfinite : (Shape.union name left ofLeft right ofRight parts).all Quantity.isFinite c = true)
    (hc : (Shape.union name left ofLeft right ofRight parts).write spell c = .object members)
    (hadmits : source.Admits (.object members)) :
    (Shape.union name left ofLeft right ofRight parts).IsStrict spell
      (fun d r => (Shape.union name left ofLeft right ofRight parts).read source d.draft = r) []
      members (defaults.inObject name) := by
  obtain ⟨hlawful, hright⟩ := Bool.and_eq_true_iff.1 hlawful
  obtain ⟨hne, hleft⟩ := Bool.and_eq_true_iff.1 hlawful
  obtain ⟨⟨htype, hvalue⟩, -⟩ := hdefaults
  rw [all] at hfinite
  rw [write] at hc
  cases hsplit : parts.split c with
  | inl a =>
    rw [hsplit] at hc hfinite
    obtain rfl := Json.object.inj hc
    have hhold := Source.hold_of_admits
      (Source.admits_of_mem_object hadmits (List.mem_cons_of_mem _ List.mem_cons_self))
    refine isStrict_union_object source name left ofLeft right ofRight parts
      (readName_left left right) hhold (c := c) ?_ htype hvalue
    rw [if_neg Bool.false_ne_true, Shape.read_write hspell ofLeft hleft _ hfinite,
      ← parts.join_split c, hsplit]
    rfl
  | inr b =>
    rw [hsplit] at hc hfinite
    obtain rfl := Json.object.inj hc
    have hhold := Source.hold_of_admits
      (Source.admits_of_mem_object hadmits (List.mem_cons_of_mem _ List.mem_cons_self))
    refine isStrict_union_object source name left ofLeft right ofRight parts
      (readName_right hne) hhold (c := c) ?_ htype hvalue
    rw [if_pos rfl, Shape.read_write hspell ofRight hright _ hfinite, ← parts.join_split c, hsplit]
    rfl

/-- Reading is strict about the object of a record or union. -/
theorem Shape.isStrict_of_write_eq_object (hspell : ReadsBack spell) {α : Type} {shape : Shape α}
    (hlawful : shape.isLawful = true) (hdefaults : shape.HasDefaults spell defaults)
    (hsolid : shape.isSolid = true) {name : String} (hname : shape.recordAt? [] = some name)
    {source : Source} {a : α} {members : List (String × Json)}
    (hfinite : shape.all Quantity.isFinite a = true) (ha : shape.write spell a = .object members)
    (hadmits : source.Admits (.object members)) :
    shape.IsStrict spell (fun d r => shape.read source d.draft = r) [] members
      (defaults.inObject name) := by
  cases shape with
  | record =>
    obtain rfl := Option.some.inj hname
    obtain rfl := Json.object.inj ha
    exact isStrict_record hspell hlawful hdefaults source hfinite
  | union =>
    obtain rfl := Option.some.inj hname
    exact isStrict_union hspell hlawful hdefaults hfinite ha hadmits
  | option => cases hsolid
  | number | text | flag | choice | list => cases hname

/-! ### Objects within documents -/

/-- Reading is strict about an object within a document if it is about the object on its own. -/
theorem Shape.Focus.isStrict {α β : Type} {shape : Shape α} {source : Source}
    {place : List Around} {name : String} {sub : Shape β} {inner : Source} {put : β → α}
    (h : shape.Focus spell defaults source place name sub inner put)
    {members : List (String × Json)} {default? : String → Option Json}
    (hsub : sub.IsStrict spell (fun d r => sub.read inner d.draft = r) [] members default?) :
    shape.IsStrict spell (fun d r => shape.read source d.draft = r) place members default? where
  missing hmembers hnone := by
    rw [h.read, ← fill_nil (Json.object _), hsub.missing hmembers hnone]
    rfl
  filled hmembers hsome := by
    obtain ⟨y, hread, hwrite⟩ := hsub.filled hmembers hsome
    rw [fill_nil] at hread hwrite
    refine ⟨put y, ?_, ?_⟩
    · rw [h.read, hread]
      rfl
    · rw [h.write]
      exact hwrite.imp (fun hy => by rw [hy]) fun ⟨hd, hy⟩ => ⟨hd, by rw [hy, fill_nil]⟩
  repeated again hmembers := by
    rw [h.read, ← fill_nil (Json.object _), hsub.repeated again hmembers]
    rfl

/-- **Reading is strict about every object in the document of a value that holds numbers only.** -/
theorem Shape.isStrict_of_write (hspell : ReadsBack spell) {α : Type} {shape : Shape α}
    (hlawful : shape.isLawful = true) (hdefaults : shape.HasDefaults spell defaults)
    {source : Source} {a : α} (hfinite : shape.all Quantity.isFinite a = true)
    (hadmits : source.Admits (shape.write spell a))
    {place : List Around} {members : List (String × Json)}
    (ha : shape.write spell a = Json.fill place (.object members)) :
    ∃ name, shape.recordAt? place = some name ∧
      shape.IsStrict spell (fun d r => shape.read source d.draft = r) place members
        (defaults.inObject name) := by
  obtain ⟨name, β, sub, inner, x, put, hfocus, hfiniteSub, hx⟩ :=
    Shape.focusesAt hspell place shape hlawful hdefaults source hfinite ha
  refine ⟨name, hfocus.recordAt?, hfocus.isStrict ?_⟩
  exact isStrict_of_write_eq_object hspell hfocus.isLawful hfocus.hasDefaults hfocus.isSolid
    hfocus.recordAt?_nil hfiniteSub hx (hfocus.admits members (ha ▸ hadmits))

/-! ### The depth of documents -/

mutual

/-- How deep the documents of a shape can be. -/
def Shape.maxDepth : {α : Type} → Shape α → ℕ
  | _, .number | _, .text | _, .flag => 0
  | _, @Shape.choice _ _ => 0
  | _, .list item => item.maxDepth + 1
  | _, .option value => value.maxDepth
  | _, .record _ fields _ => fields.maxDepth + 1
  | _, .union _ _ ofLeft _ ofRight _ => max ofLeft.maxDepth ofRight.maxDepth + 1

/-- How deep the values of fields can be. -/
def Fields.maxDepth : {β σ : Type} → Fields β σ → ℕ
  | _, _, .nil => 0
  | _, _, .cons _ shape _ rest => max shape.maxDepth rest.maxDepth

end

mutual

theorem Shape.depth_write_le : ∀ {α : Type} (shape : Shape α) (a : α),
    (shape.write spell a).depth ≤ shape.maxDepth
  | _, .number, x => by cases x <;> exact le_rfl
  | _, .text, _ | _, .flag, _ => le_rfl
  | _, @Shape.choice _ _, _ => le_rfl
  | _, .list item, as => by
    have ih := Shape.depth_write_le item
    rw [Shape.write, Json.depth, Shape.maxDepth, Nat.add_le_add_iff_right,
      Json.itemsDepth_le_iff]
    exact List.forall_mem_map.2 fun a _ => ih a
  | _, .option _, none => Nat.zero_le _
  | _, .option value, some a => Shape.depth_write_le value a
  | _, .record _ fields parts, a => by
    rw [Shape.write, Json.depth, Shape.maxDepth, Nat.add_le_add_iff_right,
      Json.membersDepth_le_iff]
    exact Fields.depth_write_le fields (parts.split a)
  | _, .union _ left ofLeft right ofRight parts, c => by
    have hleft := Shape.depth_write_le ofLeft
    have hright := Shape.depth_write_le ofRight
    rw [Shape.write, Shape.maxDepth]
    cases parts.split c with
    | inl a =>
      have := hleft a
      simp only [Json.depth, Json.membersDepth]
      omega
    | inr b =>
      have := hright b
      simp only [Json.depth, Json.membersDepth]
      omega

theorem Fields.depth_write_le : ∀ {β σ : Type} (fields : Fields β σ) (b : β),
    ∀ m ∈ fields.write spell b, m.2.depth ≤ fields.maxDepth
  | _, _, .nil, () => nofun
  | _, _, .cons key shape presence rest, (a, b) => by
    have ha := Shape.depth_write_le shape a
    have hrest : ∀ m ∈ rest.write spell b, m.2.depth ≤ max shape.maxDepth rest.maxDepth :=
      fun m hm => (Fields.depth_write_le rest b m hm).trans (le_max_right _ _)
    rw [Fields.maxDepth]
    unfold Fields.write
    split
    · exact hrest
    · exact List.forall_mem_cons.2 ⟨ha.trans (le_max_left _ _), hrest⟩

end

end Strict

end ButtonStyle

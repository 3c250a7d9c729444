import ButtonStyle.Shape.Reader

/-!
# Values that hold numbers only

`Shape.all` asks something of all quantities of a value.  What is written of a value is read back
only if they all are numbers, since JSON has no words for others.  And **what is read holds numbers
only** (`Shape.all_isFinite_of_read`), provided that no absent field is filled in with anything else
(`Shape.fillsFinite`).

Reading goes through many steps that may fail, so the proof carries what holds of a result if there
is one (`Yields`) from step to step.
-/

namespace ButtonStyle

open Json (Draft)

/-! ### The quantities of a value -/

mutual

/-- Whether all quantities of a value are as asked. -/
def Shape.all (p : Quantity → Bool) {α : Type} : Shape α → α → Bool
  | .number, x => p x
  | .text, _ => true
  | .flag, _ => true
  | @Shape.choice _ _, _ => true
  | .list item, as => as.all fun a => item.all p a
  | .option value, a =>
    match a with
    | none => true
    | some a => value.all p a
  | .record _ fields parts, a => fields.all p (parts.split a)
  | .union _ _ ofLeft _ ofRight parts, a =>
    match parts.split a with
    | .inl a => ofLeft.all p a
    | .inr a => ofRight.all p a

/-- Whether all quantities of the values of fields are as asked. -/
def Fields.all (p : Quantity → Bool) {β σ : Type} : Fields β σ → β → Bool
  | .nil, () => true
  | .cons _ shape _ rest, (a, b) => shape.all p a && rest.all p b

end

/-- The values of fields are as asked if each of them is. -/
theorem Fields.all_cons {p : Quantity → Bool} {α β σ : Type} {key : String} {shape : Shape α}
    {presence : Presence α} {rest : Fields β σ} {a : α} {b : β} (ha : shape.all p a = true)
    (hb : rest.all p b = true) : (Fields.cons key shape presence rest).all p (a, b) = true :=
  Bool.and_eq_true_iff.2 ⟨ha, hb⟩

section Mono

variable {p q : Quantity → Bool}

mutual

/-- To ask less is granted as well. -/
theorem Shape.all_mono (h : ∀ x, p x = true → q x = true) : ∀ {α : Type} (shape : Shape α) (a : α),
    shape.all p a = true → shape.all q a = true
  | _, .number, x, ha => h x ha
  | _, .text, _, _ => rfl
  | _, .flag, _, _ => rfl
  | _, @Shape.choice _ _, _, _ => rfl
  | _, .list item, as, ha => by
    have ih := Shape.all_mono h item
    rw [Shape.all, List.all_eq_true] at ha ⊢
    exact fun a hmem => ih a (ha a hmem)
  | _, .option _, none, _ => rfl
  | _, .option value, some a, ha => Shape.all_mono h value a ha
  | _, .record _ fields parts, a, ha => Fields.all_mono h fields (parts.split a) ha
  | _, .union _ _ ofLeft _ ofRight parts, a, ha => by
    have ihLeft := Shape.all_mono h ofLeft
    have ihRight := Shape.all_mono h ofRight
    rw [Shape.all] at ha ⊢
    cases hc : parts.split a with
    | inl c => rw [hc] at ha; exact ihLeft c ha
    | inr c => rw [hc] at ha; exact ihRight c ha

theorem Fields.all_mono (h : ∀ x, p x = true → q x = true) : ∀ {β σ : Type}
    (fields : Fields β σ) (b : β), fields.all p b = true → fields.all q b = true
  | _, _, .nil, (), _ => rfl
  | _, _, .cons _ shape _ rest, (a, b), hb => by
    obtain ⟨ha, hb⟩ := Bool.and_eq_true_iff.1 hb
    exact Fields.all_cons (Shape.all_mono h shape a ha) (Fields.all_mono h rest b hb)

end

end Mono

/-! ### Results -/

/-- What holds of a result if there is one. -/
def Yields {α : Type} (r : Except Fault α) (P : α → Prop) : Prop := ∀ a, r = .ok a → P a

section Yields

variable {α β : Type} {P : α → Prop} {Q : β → Prop}

theorem yields_ok {a : α} (h : P a) : Yields (.ok a) P := by
  intro b hb
  exact Except.ok.inj hb ▸ h

theorem yields_error {fault : Fault} : Yields (.error fault) P := nofun

theorem Yields.bind {r : Except Fault α} {f : α → Except Fault β} (hr : Yields r P)
    (hf : ∀ a, P a → Yields (f a) Q) : Yields (r >>= f) Q := by
  cases r with
  | error fault => exact yields_error
  | ok a => exact hf a (hr a rfl)

/-- A step whose result does not matter. -/
theorem yields_bind {r : Except Fault α} {f : α → Except Fault β} (hf : ∀ a, Yields (f a) Q) :
    Yields (r >>= f) Q :=
  Yields.bind (fun _ _ => trivial) fun a (_ : True) => hf a

theorem Yields.map {r : Except Fault α} {f : α → β} (hr : Yields r P)
    (hf : ∀ a, P a → Q (f a)) : Yields (f <$> r) Q :=
  Yields.bind hr fun a ha => yields_ok (hf a ha)

theorem Yields.mapM {γ : Type} {f : γ → Except Fault α} (h : ∀ c, Yields (f c) P) (cs : List γ) :
    Yields (cs.mapM f) fun as => ∀ a ∈ as, P a := by
  induction cs with
  | nil => exact yields_ok nofun
  | cons c cs ih =>
    rw [List.mapM_cons]
    exact (h c).bind fun a ha => ih.bind fun as has => yields_ok (List.forall_mem_cons.2 ⟨ha, has⟩)

theorem Yields.foldlM {γ : Type} {f : α → γ → Except Fault α} (h : ∀ a c, P a → Yields (f a c) P)
    {a : α} (ha : P a) (cs : List γ) : Yields (cs.foldlM f a) P := by
  induction cs generalizing a with
  | nil => exact yields_ok ha
  | cons c cs ih =>
    rw [List.foldlM_cons]
    exact (h a c ha).bind fun a' ha' => ih ha'

end Yields

/-! ### What is filled in -/

mutual

/-- Whether absent fields are filled in with numbers only. -/
def Shape.fillsFinite : {α : Type} → Shape α → Bool
  | _, .number => true
  | _, .text => true
  | _, .flag => true
  | _, @Shape.choice _ _ => true
  | _, .list item => item.fillsFinite
  | _, .option value => value.fillsFinite
  | _, .record _ fields _ => fields.fillsFinite
  | _, .union _ _ ofLeft _ ofRight _ => ofLeft.fillsFinite && ofRight.fillsFinite

/-- Whether the fields and the fields within them are filled in with numbers only. -/
def Fields.fillsFinite : {β σ : Type} → Fields β σ → Bool
  | _, _, .nil => true
  | _, _, .cons _ shape presence rest =>
    presence.inObject.all (fun a => shape.all Quantity.isFinite a) &&
      presence.inList.all (fun a => shape.all Quantity.isFinite a) &&
      shape.fillsFinite && rest.fillsFinite

end

/-- Whether the values of fields that have been read hold numbers only. -/
def Fields.slotsFinite : {β σ : Type} → Fields β σ → σ → Bool
  | _, _, .nil, () => true
  | _, _, .cons _ shape _ rest, (slot, slots) =>
    slot.all (fun a => shape.all Quantity.isFinite a) && rest.slotsFinite slots

theorem Fields.slotsFinite_unread : ∀ {β σ : Type} (fields : Fields β σ),
    fields.slotsFinite fields.unread = true
  | _, _, .nil => rfl
  | _, _, .cons _ _ _ rest => rest.slotsFinite_unread

/-! ### What is read -/

theorem Fields.finish_yields : ∀ {β σ : Type} (fields : Fields β σ), fields.fillsFinite = true →
    ∀ slots, fields.slotsFinite slots = true →
    Yields (fields.finish slots) (fields.all Quantity.isFinite · = true)
  | _, _, .nil, _, (), _ => yields_ok rfl
  | _, _, .cons key shape presence rest, hfills, (slot, slots), hslots => by
    obtain ⟨hfills, hrest⟩ := Bool.and_eq_true_iff.1 hfills
    obtain ⟨hfilled, -⟩ := Bool.and_eq_true_iff.1 (Bool.and_eq_true_iff.1 hfills).1
    obtain ⟨hslot, hslots⟩ := Bool.and_eq_true_iff.1 hslots
    rw [Option.all_eq_true] at hfilled hslot
    have ih := Fields.finish_yields rest hrest slots hslots
    have hpair (a : _) (ha : shape.all Quantity.isFinite a = true) :
        Yields (rest.finish slots >>= fun b => .ok (a, b))
          ((Fields.cons key shape presence rest).all Quantity.isFinite · = true) :=
      ih.bind fun b hb => yields_ok (Fields.all_cons ha hb)
    cases slot with
    | some a => exact hpair a (hslot a rfl)
    | none =>
      unfold Fields.finish
      cases hin : presence.inObject with
      | some a => exact hpair a (hfilled a hin)
      | none => exact yields_error

namespace Tagged

variable {τ γ : Type} {P : γ → Prop} {readTag : Draft → Except Fault τ}
  {readValue : τ → Source → Draft → Except Fault γ} {source : Source}

/-- What holds of a value if it has been read. -/
def Holds (P : γ → Prop) : Tagged τ γ → Prop
  | both c => P c
  | nothing | tag _ | value _ => True

theorem holds_nothing : (nothing : Tagged τ γ).Holds P := trivial

theorem member_yields (h : ∀ t source d, Yields (readValue t source d) P) (key : String)
    (d : Draft) {read : Tagged τ γ} (hread : read.Holds P) :
    Yields (member readTag readValue source key d read) (Holds P) := by
  cases read with
  | nothing =>
    rw [member]
    split
    · exact yields_bind fun t => yields_ok trivial
    · split <;> exact yields_bind fun _ => yields_ok trivial
  | tag t =>
    rw [member]
    split
    · exact yields_error
    · split
      · exact (h t source d).bind fun c hc => yields_ok hc
      · exact yields_bind fun _ => yields_ok trivial
  | value held =>
    rw [member]
    split
    · exact yields_bind fun t => (h t .held held).bind fun c hc => yields_ok hc
    · split
      · exact yields_error
      · exact yields_bind fun _ => yields_ok trivial
  | both c =>
    rw [member]
    split
    · exact yields_error
    · exact yields_bind fun _ => yields_ok hread

theorem finish_yields {read : Tagged τ γ} (hread : read.Holds P) : Yields read.finish P := by
  cases read with
  | both c => exact yields_ok hread
  | nothing | tag | value => exact yields_error

end Tagged

mutual

/-- **What is read holds numbers only.** -/
theorem Shape.read_yields : ∀ {α : Type} (shape : Shape α), shape.fillsFinite = true →
    ∀ (source : Source) (d : Draft),
    Yields (shape.read source d) (shape.all Quantity.isFinite · = true)
  | _, .number, _, source, d => by
    rw [Shape.read.eq_def]
    dsimp only
    split
    · split
      · exact yields_ok rfl
      · exact yields_error
    · exact yields_error
  | _, .text, _, _, _ => fun _ _ => rfl
  | _, .flag, _, _, _ => fun _ _ => rfl
  | _, @Shape.choice _ _, _, _, _ => fun _ _ => rfl
  | _, .list item, h, source, d => by
    have ih := Shape.read_yields item h source.inner
    rw [Shape.read.eq_def]
    dsimp only
    split
    · refine (Yields.mapM ih _).bind fun as has => yields_bind fun _ => yields_ok ?_
      exact List.all_eq_true.2 has
    · exact yields_error
  | _, .option value, h, source, d => by
    have ih := Shape.read_yields value h source
    rw [Shape.read.eq_def]
    dsimp only
    split
    · exact yields_ok rfl
    · exact yields_error
    · exact (ih _).map fun a ha => ha
  | _, .record name fields parts, h, source, d => by
    have hjoin : ∀ b, fields.all Quantity.isFinite b = true →
        (Shape.record name fields parts).all Quantity.isFinite (parts.join b) = true := by
      intro b hb
      rw [Shape.all, parts.split_join, hb]
    rw [Shape.read.eq_def]
    dsimp only
    split
    · exact (Fields.readItems_yields fields h source.inner _ _ _ _ _).map hjoin
    · refine Yields.bind
        (Yields.foldlM (P := (fields.slotsFinite · = true)) (fun slots m hslots => ?_)
          fields.slotsFinite_unread _)
        fun slots hslots => yields_bind fun _ => (fields.finish_yields h slots hslots).map hjoin
      refine yields_bind fun key => ?_
      split
      · next r hput => exact Fields.put_yields fields h source.inner key m.2 hslots hput
      · exact yields_bind fun _ => yields_ok hslots
    · exact yields_error
  | _, .union name left ofLeft right ofRight parts, h, source, d => by
    obtain ⟨hleft, hright⟩ := Bool.and_eq_true_iff.1 h
    have ihLeft := Shape.read_yields ofLeft hleft
    have ihRight := Shape.read_yields ofRight hright
    have hvalue : ∀ (t : Bool) (source : Source) (d : Draft), Yields
        (if t then (parts.join ∘ Sum.inr) <$> ofRight.read source d
          else (parts.join ∘ Sum.inl) <$> ofLeft.read source d)
        ((Shape.union name left ofLeft right ofRight parts).all Quantity.isFinite · = true) := by
      intro t source d
      split
      · refine (ihRight source d).map fun a ha => ?_
        rw [Shape.all, Function.comp_apply, parts.split_join]
        exact ha
      · refine (ihLeft source d).map fun a ha => ?_
        rw [Shape.all, Function.comp_apply, parts.split_join]
        exact ha
    rw [Shape.read.eq_def]
    dsimp only
    split
    · exact yields_bind fun _ => yields_error
    · exact yields_bind fun _ => yields_bind fun _ => yields_error
    · exact yields_bind fun t => (hvalue t _ _).bind fun c hc => yields_bind fun _ => yields_ok hc
    · refine Yields.bind (Yields.foldlM (fun read m hread => ?_) Tagged.holds_nothing _)
        fun read hread => yields_bind fun _ => Tagged.finish_yields hread
      exact yields_bind fun key => Tagged.member_yields hvalue key m.2 hread
    · exact yields_error

theorem Fields.put_yields : ∀ {β σ : Type} (fields : Fields β σ), fields.fillsFinite = true →
    ∀ (source : Source) (k : String) (d : Draft) {slots : σ}, fields.slotsFinite slots = true →
    ∀ {r : Except Fault σ}, fields.put source k d slots = some r →
    Yields r (fields.slotsFinite · = true)
  | _, _, .nil, _, _, _, _, (), _, _, hput => by
    rw [Fields.put] at hput
    cases hput
  | _, _, .cons key shape presence rest, hfills, source, k, d, (slot, slots), hslots, r, hput => by
    obtain ⟨hfills, hrest⟩ := Bool.and_eq_true_iff.1 hfills
    obtain ⟨hslot, hslots⟩ := Bool.and_eq_true_iff.1 hslots
    rw [Fields.put.eq_def] at hput
    dsimp only at hput
    split at hput
    · obtain rfl := Option.some.inj hput
      split
      · exact yields_error
      · refine (Shape.read_yields shape (Bool.and_eq_true_iff.1 hfills).2 source d).map ?_
        exact fun a ha => Bool.and_eq_true_iff.2 ⟨ha, hslots⟩
    · obtain ⟨r', hrest', rfl⟩ := Option.map_eq_some_iff.1 hput
      refine (Fields.put_yields rest hrest source k d hslots hrest').map ?_
      exact fun slots hslots => Bool.and_eq_true_iff.2 ⟨hslot, hslots⟩

theorem Fields.readItems_yields : ∀ {β σ : Type} (fields : Fields β σ),
    fields.fillsFinite = true → ∀ (source : Source) (name : String) (size given : Nat)
    (items : List Draft) (stop : Option Json.Gap),
    Yields (fields.readItems source name size given items stop)
      (fields.all Quantity.isFinite · = true)
  | _, _, .nil, _, _, _, _, _, _, _ => fun _ _ => rfl
  | _, _, .cons key shape presence rest, hfills, source, name, size, given, items, stop => by
    obtain ⟨hfills, hrest⟩ := Bool.and_eq_true_iff.1 hfills
    obtain ⟨hfilled, hshape⟩ := Bool.and_eq_true_iff.1 hfills
    have hlist := (Option.all_eq_true _ _).1 (Bool.and_eq_true_iff.1 hfilled).2
    have ih := Fields.readItems_yields rest hrest source name size (given + 1)
    rw [Fields.readItems.eq_def]
    dsimp only
    split
    · refine yields_bind fun _ => ?_
      split
      · next a h =>
        exact (ih [] stop).bind fun b hb => yields_ok (Fields.all_cons (hlist a h) hb)
      · exact yields_error
    · next d ds =>
      exact (Shape.read_yields shape hshape source d).bind fun a ha =>
        (ih ds stop).bind fun b hb => yields_ok (Fields.all_cons ha hb)

end

/-- **What a text gives holds numbers only.** -/
theorem Shape.all_isFinite_of_ofString {α : Type} {shape : Shape α}
    (h : shape.fillsFinite = true) {s : String} {a : α} (ha : shape.ofString s = .ok a) :
    shape.all Quantity.isFinite a = true := by
  have hyields : Yields (shape.ofString s) (shape.all Quantity.isFinite · = true) := by
    refine (shape.read_yields h _ _).bind fun a ha => ?_
    split
    · exact yields_ok ha
    · exact yields_error
  exact hyields a ha

end ButtonStyle

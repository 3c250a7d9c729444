import ButtonStyle.Button.Standard
import ButtonStyle.Proofs.Preset.RoundTrip
import ButtonStyle.Proofs.Shape.Listing
import ButtonStyle.Proofs.Shape.Strictness

/-!
# Defaults, lists and missing members of buttons

Few fields of a button have a default (`Button.declared?`), and one more may be absent from an
object, though not from a list (`Button.optional?`).  With these,

* **a button is read from every form of its document**, in which any records and fills are lists
  (`forms_read_back`);
* **reading is strict about every object in the document of a button** (`reading_is_strict`), and
  the look of a state is never filled from another one.
-/

namespace ButtonStyle

open Json (Around Token fill)

namespace Button

/-! ### Defaults -/

/-- The defaults of fields, as documents, by the name of the record and the key of the field. -/
def declared : List ((String × String) × Json) :=
  [(("LayoutConfig", "borderStyle"), .text "solid"),
   (("TypographyConfig", "textTransform"), .text "none"),
   (("TypographyConfig", "textShadow"), .list []),
   (("Shadow", "inset"), .flag false),
   (("Shadow", "enabled"), .flag true),
   (("StateStyle", "ring"), .null),
   (("StateStyle", "filter"), .null)]

/-- The default of a field, if there is one. -/
def declared? (name key : String) : Option Json := declared.lookup (name, key)

/-- What a member is that an object may lack.  The border gradient has no declared default, but is
absent if its member is. -/
def optional? (name key : String) : Option Json :=
  ((("EffectsConfig", "borderGradient"), .null) :: declared).lookup (name, key)

/-- What absent fields of buttons are. -/
def defaults : Defaults := ⟨optional?, declared?⟩

@[simp] theorem inObject_defaults (name key : String) :
    defaults.inObject name key = optional? name key := rfl

@[simp] theorem inList_defaults (name key : String) :
    defaults.inList name key = declared? name key := rfl

end Button

section Defaults

open Button

theorem Gradient.shape_hasDefaults : Gradient.shape.HasDefaults Number.literal Button.defaults := by
  simp [Gradient.shape, Stop.shape, optional?, declared?, declared, List.lookup_cons]

theorem Fill.shape_hasDefaults : Fill.shape.HasDefaults Number.literal Button.defaults := by
  simp [Fill.shape, Gradient.shape_hasDefaults, optional?, declared, List.lookup_cons]

theorem Layout.shape_hasDefaults : Layout.shape.HasDefaults Number.literal Button.defaults := by
  simp [Layout.shape, Sides.shape, Corners.shape, Shape.write, Named.name, optional?, declared?,
    declared, List.lookup_cons]

theorem Shadow.shape_hasDefaults : Shadow.shape.HasDefaults Number.literal Button.defaults := by
  simp [Shadow.shape, Shape.write, optional?, declared?, declared, List.lookup_cons]

theorem Typography.shape_hasDefaults :
    Typography.shape.HasDefaults Number.literal Button.defaults := by
  simp [Typography.shape, Shadow.shape_hasDefaults, Shape.write, Named.name, optional?, declared?,
    declared, List.lookup_cons]

theorem Effects.shape_hasDefaults : Effects.shape.HasDefaults Number.literal Button.defaults := by
  simp [Effects.shape, Gradient.shape_hasDefaults, optional?, declared?, declared,
    List.lookup_cons]

theorem Look.shape_hasDefaults : Look.shape.HasDefaults Number.literal Button.defaults := by
  simp [Look.shape, Fill.shape_hasDefaults, Shadow.shape_hasDefaults, Ring.shape, Transform.shape,
    Filter.shape, optional?, declared?, declared, List.lookup_cons]

theorem Looks.shape_hasDefaults : Looks.shape.HasDefaults Number.literal Button.defaults := by
  simp [Looks.shape, Look.shape_hasDefaults, optional?, declared?, declared, List.lookup_cons]

/-- **The absent fields of a button are the defaults.** -/
theorem Button.shape_hasDefaults : Button.shape.HasDefaults Number.literal Button.defaults := by
  simp [Button.shape, Layout.shape_hasDefaults, Typography.shape_hasDefaults,
    Effects.shape_hasDefaults, Looks.shape_hasDefaults, Icon.shape, Motion.shape,
    Interactions.shape, Tilt.shape, optional?, declared?, declared, List.lookup_cons]

end Defaults

/-! ### Lists -/

namespace Button

/-- **A button that holds numbers only is read from every form of its document**: any records in it
may be lists of their fields, which may end before defaults, and any fills lists of type and
value. -/
theorem forms_read_back {b : Button} (hb : shape.all Quantity.isFinite b = true) :
    shape.HasForm Number.literal declared? (shape.write Number.literal b) b ∧
      ∀ {d : Json}, shape.HasForm Number.literal declared? d b → shape.TextsGive d (.ok b) := by
  refine ⟨shape.hasForm_write b, fun {d} h => Shape.textsGive_of_read ?_⟩
  exact Shape.read_of_hasForm readsBack_literal shape shape_isLawful shape_fillsFinite
    shape_hasDefaults hb h

/-- The standard button, with lists for all records and fills. -/
theorem forms_read_back_listed :
    shape.HasForm Number.literal declared? (shape.listed Number.literal standard) standard ∧
      Token.Spells ((shape.listed Number.literal standard).pretty 0)
        (shape.listed Number.literal standard).tokens ∧
      shape.ofString (shape.listed Number.literal standard).toPretty = .ok standard := by
  have hform : shape.HasForm Number.literal declared? (shape.listed Number.literal standard)
      standard := shape.hasForm_listed standard
  have hspells := Json.spells_pretty 0 (shape.listed Number.literal standard)
  exact ⟨hform, hspells, (forms_read_back isFinite_standard).2 hform hspells⟩

end Button

/-- A fill that is a list. -/
example : Fill.shape.read (.text 0) (Json.list [.text "solid", .text "red"]).draft =
    .ok (.solid "red") := rfl

/-! ### Missing and repeated members -/

/-- Each look is read from the member of its own state, whatever other members there are. -/
theorem Looks.exists_member_of_read {source : Source} {members : List (String × Json)}
    {looks : Looks} (h : Looks.shape.read source (Json.object members).draft = .ok looks)
    (s : State) :
    ∃ d, (Named.name s, d) ∈ members ∧
      Look.shape.read source.inner d.draft = .ok (looks.get s) := by
  rw [Looks.shape, Shape.read_record_object] at h
  obtain ⟨b, hb, hlooks⟩ := exists_ok_of_map_eq_ok h
  obtain rfl := hlooks
  have hfilled := Fields.isFilled_of_readMembers hb
  obtain ⟨default, hover, active, focus, disabled, loading, ⟨⟩⟩ := b
  obtain ⟨h₁, h₂, h₃, h₄, h₅, h₆, -⟩ := hfilled
  cases s with
  | default => exact h₁.resolve_right nofun
  | hover => exact h₂.resolve_right nofun
  | active => exact h₃.resolve_right nofun
  | focus => exact h₄.resolve_right nofun
  | disabled => exact h₅.resolve_right nofun
  | loading => exact h₆.resolve_right nofun

namespace Button

/-- **Reading is strict about every object in the document of a button that holds numbers only**:
any member that is removed is missing if there is no default, and any member that is repeated is a
duplicate.  And no look is filled from the member of another state. -/
theorem reading_is_strict :
    (∀ (b : Button) {place : List Around} {members : List (String × Json)},
      shape.all Quantity.isFinite b = true →
      shape.write Number.literal b = fill place (.object members) →
      ∃ name, shape.recordAt? place = some name ∧
        shape.IsStrict Number.literal (fun d r => shape.TextsGive d r) place members
          (optional? name)) ∧
    ∀ {source : Source} {members : List (String × Json)} {looks : Looks},
      Looks.shape.read source (Json.object members).draft = .ok looks →
      ∀ s : State, ∃ d, (Named.name s, d) ∈ members ∧
        Look.shape.read source.inner d.draft = .ok (looks.get s) := by
  refine ⟨fun b place members hfinite hb => ?_, Looks.exists_member_of_read⟩
  have hadmits : (Source.text 0).Admits (shape.write Number.literal b) := by
    have hdepth : (shape.write Number.literal b).depth ≤ shape.maxDepth := shape.depth_write_le b
    have hmax : shape.maxDepth ≤ depthLimit := by decide
    exact ⟨shape.isFinite_write readsBack_literal b, by omega⟩
  obtain ⟨name, hname, hstrict⟩ :=
    Shape.isStrict_of_write readsBack_literal shape_isLawful shape_hasDefaults hfinite
      hadmits hb
  exact ⟨name, hname, hstrict.imp Shape.textsGive_of_read⟩

/-- The lettering of the standard button without its font, and with a second font; and the look of
its state under the pointer. -/
theorem reading_is_strict_standard :
    ∃ (place : List Around) (font : Json) (members looks : List (String × Json)),
      shape.write Number.literal standard =
          fill place (.object (("fontFamily", font) :: members)) ∧
        shape.TextsGive (fill place (.object members))
          (.error (.misfit (.missingField "fontFamily"))) ∧
        shape.TextsGive
          (fill place (.object (("fontFamily", font) :: ("fontFamily", .null) :: members)))
          (.error (.misfit (.duplicateField "fontFamily"))) ∧
        Looks.shape.read .held (Json.object looks).draft = .ok standard.states ∧
        ∃ d, ("hover", d) ∈ looks ∧ Look.shape.read .held d.draft = .ok standard.states.hover := by
  have hwrite : shape.write Number.literal standard = fill [.member [("layout", _)] "typography" _]
      (.object ([] ++ ("fontFamily", _) :: ([] ++ _))) := rfl
  have hlooks : Looks.shape.read .held (Json.object (Fields.write Number.literal _ _)).draft =
      .ok standard.states :=
    Shape.read_write readsBack_literal Looks.shape (by decide) .held (by decide)
  obtain ⟨name, hname, hstrict⟩ := reading_is_strict.1 standard isFinite_standard hwrite
  obtain rfl : "TypographyConfig" = name := Option.some.inj hname
  exact ⟨_, _, _, _, hwrite, hstrict.missing rfl rfl, hstrict.repeated .null rfl, hlooks,
    reading_is_strict.2 hlooks .hover⟩

end Button

end ButtonStyle

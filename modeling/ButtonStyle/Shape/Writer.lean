import ButtonStyle.Json.Basic
import ButtonStyle.Shape.Basic

/-!
# Writing by shape

The document of a value has the members of each record in the order of the fields.  How numbers
are written is left open, since there are two notations.  A quantity that is no number is written as
null.
-/

namespace ButtonStyle

/-- The document of a quantity. -/
def Quantity.write (spell : Number → Json.Literal) : Quantity → Json
  | finite x => .number (spell x)
  | infinite _ | undefined => .null

mutual

/-- The document of a value. -/
def Shape.write (spell : Number → Json.Literal) {α : Type} : Shape α → α → Json
  | .number, x => x.write spell
  | .text, s => .text s
  | .flag, b => .flag b
  | @Shape.choice _ named, a => .text (named.name a)
  | .list item, as => .list (as.map fun a => item.write spell a)
  | .option value, a =>
    match a with
    | none => .null
    | some a => value.write spell a
  | .record _ fields parts, a => .object (fields.write spell (parts.split a))
  | .union _ left ofLeft right ofRight parts, a =>
    match parts.split a with
    | .inl a => .object [("type", .text left), ("value", ofLeft.write spell a)]
    | .inr a => .object [("type", .text right), ("value", ofRight.write spell a)]

/-- The members of a record. -/
def Fields.write (spell : Number → Json.Literal) {β σ : Type} :
    Fields β σ → β → List (String × Json)
  | .nil, () => []
  | .cons key shape presence rest, (a, b) =>
    if presence.unwritten a then rest.write spell b
    else (key, shape.write spell a) :: rest.write spell b

end

end ButtonStyle

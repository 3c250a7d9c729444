import ButtonStyle.Number.Quantity

/-!
# Shapes

A shape says how the values of a type are written in JSON: a number, a text, a list of such, an
object with certain fields.  Reading and writing are defined once for all shapes, by recursion on
the shape, and each type of the library only states its shape.

A record is read from an object, its members in any order, or from a list of its fields in their
order.  What happens when a field is absent is its `Presence`.
-/

namespace ButtonStyle

/-- A type of names, each with its spelling. -/
class Named (α : Type) where
  /-- The values, in the order of their declaration. -/
  all : List α
  /-- The name of a value. -/
  name : α → String
  /-- A value is found again by its name. -/
  find_name : ∀ a, all.find? (fun b => name b == name a) = some a := by intro a; cases a <;> rfl

namespace Named

variable {α : Type} [Named α]

/-- The value of a name, if there is one. -/
def ofName? (s : String) : Option α := all.find? (fun a => name a == s)

/-- All names, in the order of their declaration. -/
def names (α : Type) [Named α] : List String := (all : List α).map name

@[simp] theorem ofName?_name (a : α) : ofName? (name a) = some a := find_name a

end Named

/-- What holds for a field that is absent. -/
structure Presence (α : Type) where
  /-- The value if an object lacks the member; none if the member is required. -/
  inObject : Option α := none
  /-- The value if a list ends before the item; none if the item is required. -/
  inList : Option α := none
  /-- The values for which no member is written. -/
  unwritten : α → Bool := fun _ => false
  /-- What is not written is filled in again. -/
  inObject_of_unwritten : ∀ a, unwritten a = true → inObject = some a := by simp

namespace Presence

variable {α : Type}

/-- The field is always there. -/
def required : Presence α := {}

/-- The field may be absent, and then is `a`; it is always written. -/
def filledWith (a : α) : Presence α := { inObject := some a, inList := some a }

/-- The member may be absent, but not the item of a list; it is always written. -/
def nullable : Presence (Option α) := { inObject := some none }

/-- The field may be absent, and is written only if there is a value. -/
def optional : Presence (Option α) where
  inObject := some none
  inList := some none
  unwritten := Option.isNone
  inObject_of_unwritten a h := by simp_all

end Presence

/-- A type with its parts: the same values, taken together and apart. -/
structure Parts (α β : Type) where
  join : β → α
  split : α → β
  join_split : ∀ a, join (split a) = a := by intro a; cases a <;> rfl
  split_join : ∀ b, split (join b) = b := by intro b; rfl

mutual

/-- How the values of a type are written in JSON. -/
inductive Shape : Type → Type 1
  | number : Shape Quantity
  | text : Shape String
  | flag : Shape Bool
  /-- One of finitely many names. -/
  | choice {α : Type} [Named α] : Shape α
  | list {α : Type} (item : Shape α) : Shape (List α)
  /-- A value or null. -/
  | option {α : Type} (value : Shape α) : Shape (Option α)
  /-- An object with certain fields. -/
  | record {α β σ : Type} (name : String) (fields : Fields β σ) (parts : Parts α β) : Shape α
  /-- An object with a member `type`, one of two names, and a member `value` whose shape depends
  on the name. -/
  | union {α β γ : Type} (name : String) (left : String) (ofLeft : Shape α) (right : String)
      (ofRight : Shape β) (parts : Parts γ (α ⊕ β)) : Shape γ

/-- The fields of a record.  `β` holds their values, `σ` those of them that have been read. -/
inductive Fields : Type → Type → Type 1
  | nil : Fields Unit Unit
  | cons {α β σ : Type} (key : String) (shape : Shape α) (presence : Presence α)
      (rest : Fields β σ) : Fields (α × β) (Option α × σ)

end

namespace Fields

/-- How many fields there are. -/
def size : {β σ : Type} → Fields β σ → Nat
  | _, _, nil => 0
  | _, _, cons _ _ _ rest => rest.size + 1

/-- The keys, in order. -/
def keys : {β σ : Type} → Fields β σ → List String
  | _, _, nil => []
  | _, _, cons key _ _ rest => key :: rest.keys

/-- No field has been read. -/
def unread : {β σ : Type} → Fields β σ → σ
  | _, _, nil => ()
  | _, _, cons _ _ _ rest => (none, rest.unread)

end Fields

end ButtonStyle

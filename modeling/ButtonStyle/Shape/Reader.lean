import ButtonStyle.Json.Draft
import ButtonStyle.Shape.Basic
import ButtonStyle.Shape.Fault

/-!
# Reading by shape

A draft is read from left to right, and the first fault wins.  What has no place in the shape is
passed over; its text must be in order, yet less is asked of it: numbers may be too large, and
surrogates may stand alone.

The value of a union may come before its tag.  It is then held as a whole, which asks as much of
its text as reading does and limits its depth, and is read when the tag is known.
-/

namespace ButtonStyle

open Json (Draft Gap Key)

/-- How deep lists and objects may stand in each other where values are read or held.  No shape is
so deep, so that only a value that is held can be too deep. -/
def depthLimit : Nat := 127

namespace Json

/-- The fault that a gap is for a reader. -/
def Gap.fault : Gap → Fault
  | ended | cutNull | cutFlag | cutNumber | cutText true => .cut
  | stray | misplaced _ | cutText false => .malformed

/-- The fault that a gap is in a text that is passed over.  A number that breaks off is then not
told from a wrong one, and surrogates do not matter. -/
def Gap.passedFault : Gap → Fault
  | ended | cutNull | cutFlag | cutText _ => .cut
  | stray | misplaced _ | cutNumber => .malformed

namespace Draft

/-- Passes over a value. -/
def pass : Draft → Except Fault Unit
  | gap g => .error g.passedFault
  | list _ (some g) => .error g.passedFault
  | object _ (some g) => .error g.passedFault
  | _ => .ok ()

/-- What a whole value is found to be. -/
def found? : Draft → Option Found
  | null => some .null
  | flag b => some (.flag b)
  | number l => l.found?
  | text s => some (.text s)
  | list _ _ => some .list
  | object _ _ => some .object
  | unpaired => none
  | gap _ => none

/-- The fault of a value that is not what was wanted. -/
def unwanted (d : Draft) (expected : Expected) : Fault :=
  match d with
  | gap g => g.fault
  | d =>
    match d.found? with
    | some found => .misfit (.wrongType found expected)
    | none => .malformed

/-- The end of a list or object. -/
def atEnd : Option Gap → Except Fault Unit
  | none => .ok ()
  | some g => .error g.fault

/-- A key that is to be a text. -/
def keyText : Key → Except Fault String
  | .text s => .ok s
  | .unpaired => .error .malformed
  | .broken g => .error g.fault

mutual

/-- Holds a value as a whole; `depth` is how many lists and objects stand around it. -/
def hold (depth : Nat) : Draft → Except Fault Unit
  | number l => if l.number?.isSome then .ok () else .error .malformed
  | unpaired => .error .malformed
  | gap g => .error g.fault
  | list items stop => do
    if depthLimit ≤ depth then .error .malformed
    holdItems (depth + 1) items
    atEnd stop
  | object members stop => do
    if depthLimit ≤ depth then .error .malformed
    holdMembers (depth + 1) members
    atEnd stop
  | _ => .ok ()

/-- Holds the items of a list. -/
def holdItems (depth : Nat) : List Draft → Except Fault Unit
  | [] => .ok ()
  | d :: ds => do
    hold depth d
    holdItems depth ds

/-- Holds the members of an object. -/
def holdMembers (depth : Nat) : List (Key × Draft) → Except Fault Unit
  | [] => .ok ()
  | (key, d) :: rest => do
    let _ ← keyText key
    hold depth d
    holdMembers depth rest

end

end Draft

end Json

/-- How a value is read: from the text, or from a document that is held. -/
inductive Source
  /-- From the text, `depth` lists and objects standing around the value. -/
  | text (depth : Nat)
  | held
deriving DecidableEq

namespace Source

/-- The source of what stands within a list or object. -/
def inner : Source → Source
  | text depth => text (depth + 1)
  | held => held

/-- Holds a value that stands in the source. -/
def hold (d : Draft) : Source → Except Fault Unit
  | text depth => d.hold depth
  | held => .ok ()

end Source

/-! ### Choices -/

/-- The value that a name stands for. -/
def readName {α : Type} (names : List (String × α)) (s : String) : Except Fault α :=
  match names.lookup s with
  | some a => .ok a
  | none => .error (.misfit (.unknownName s (names.map Prod.fst)))

/-- A choice in a text: a name, or an object with the name as its only key and null as value. -/
def readChoice {α : Type} (names : List (String × α)) : Draft → Except Fault α
  | .text s => readName names s
  | .gap .ended => .error .cut
  | .gap (.cutText sound) => .error (Gap.cutText sound).fault
  | .object [] stop => do
    Draft.atEnd stop
    .error .malformed
  | .object ((key, d) :: more) stop => do
    let s ← match key with
      | .broken (.misplaced found) => .error (.misfit (.wrongType found .choice))
      | key => Draft.keyText key
    let a ← readName names s
    match d with
    | .null => pure ()
    | d => .error (d.unwanted .nothing)
    if more.isEmpty then Draft.atEnd stop else .error .malformed
    return a
  | _ => .error .malformed

/-- A choice in a document that is held.  An empty object may stand for null here. -/
def readHeldChoice {α : Type} (names : List (String × α)) : Draft → Except Fault α
  | .text s => readName names s
  | .object [(.text s, d)] _ => do
    let a ← readName names s
    match d with
    | .null => return a
    | .object [] _ => return a
    | d => .error (d.unwanted .nothing)
  | .object _ _ => .error (.misfit .notSingleKey)
  | d => .error (d.unwanted .nameOrObject)

/-- A choice. -/
def Source.readChoice {α : Type} (names : List (String × α)) (d : Draft) : Source → Except Fault α
  | text _ => ButtonStyle.readChoice names d
  | held => readHeldChoice names d

/-- What follows the last field of a list, `given` being the count of fields. -/
def Source.afterFields (given : Nat) (more : List Draft) (stop : Option Gap) :
    Source → Except Fault Unit
  | text _ => if more.isEmpty then Draft.atEnd stop else .error .malformed
  | held =>
    if more.isEmpty then .ok ()
    else .error (.misfit (.longList (given + more.length) given))

/-! ### Unions -/

/-- What has been read of an object for a union: `τ` are its tags, `γ` its values. -/
inductive Tagged (τ γ : Type)
  | nothing
  | tag (t : τ)
  /-- The value came first and is held. -/
  | value (d : Draft)
  | both (c : γ)

/-- Reads a member of a union.  `readTag` reads the tag, `readValue` a value for a tag. -/
def Tagged.member {τ γ : Type} (readTag : Draft → Except Fault τ)
    (readValue : τ → Source → Draft → Except Fault γ) (source : Source) (key : String)
    (d : Draft) : Tagged τ γ → Except Fault (Tagged τ γ)
  | nothing =>
    if key = "type" then return tag (← readTag d)
    else if key = "value" then do
      source.hold d
      return value d
    else do
      d.pass
      return nothing
  | tag t =>
    if key = "type" then .error (.misfit (.duplicateField key))
    else if key = "value" then return both (← readValue t source d)
    else do
      d.pass
      return tag t
  | value held =>
    if key = "type" then do
      let t ← readTag d
      return both (← readValue t .held held)
    else if key = "value" then .error (.misfit (.duplicateField key))
    else do
      d.pass
      return value held
  | both c =>
    if key = "type" ∨ key = "value" then .error (.misfit (.duplicateField key))
    else do
      d.pass
      return both c

/-- The value of a union when all its members are read. -/
def Tagged.finish {τ γ : Type} : Tagged τ γ → Except Fault γ
  | nothing => .error (.misfit (.missingField "type"))
  | tag _ => .error (.misfit (.missingField "value"))
  | value _ => .error (.misfit (.missingField "type"))
  | both c => .ok c

/-! ### Shapes -/

/-- The record when all its members are read. -/
def Fields.finish : {β σ : Type} → Fields β σ → σ → Except Fault β
  | _, _, .nil, () => .ok ()
  | _, _, .cons key _ presence rest, (slot, slots) => do
    let a ← match slot with
      | some a => .ok a
      | none =>
        match presence.inObject with
        | some a => .ok a
        | none => .error (.misfit (.missingField key))
    let b ← rest.finish slots
    return (a, b)

mutual

/-- Reads a value. -/
def Shape.read (source : Source) {α : Type} : Shape α → Draft → Except Fault α
  | .number, d =>
    match d with
    | .number l =>
      match l.number? with
      | some x => .ok (.finite x)
      | none => .error .malformed
    | d => .error (d.unwanted .number)
  | .text, d =>
    match d with
    | .text s => .ok s
    | d => .error (d.unwanted .text)
  | .flag, d =>
    match d with
    | .flag b => .ok b
    | d => .error (d.unwanted .flag)
  | @Shape.choice _ named, d =>
    source.readChoice (named.all.map fun a => (Named.name a, a)) d
  | .list item, d =>
    match d with
    | .list items stop => do
      let as ← items.mapM fun d => item.read source.inner d
      Draft.atEnd stop
      return as
    | d => .error (d.unwanted .list)
  | .option value, d =>
    match d with
    | .null => .ok none
    | .gap .cutNull => .error .cut
    | d => some <$> value.read source d
  | .record name fields parts, d =>
    match d with
    | .list items stop =>
      parts.join <$> fields.readItems source.inner name fields.size 0 items stop
    | .object members stop => do
      let slots ← members.foldlM
        (fun slots m => do
          let key ← Draft.keyText m.1
          match fields.put source.inner key m.2 slots with
          | some slots => slots
          | none => do
            m.2.pass
            return slots)
        fields.unread
      Draft.atEnd stop
      parts.join <$> fields.finish slots
    | d => .error (d.unwanted (.record name))
  | .union name left ofLeft right ofRight parts, d =>
    let readTag := fun d => source.inner.readChoice [(left, false), (right, true)] d
    let readValue := fun (t : Bool) source d =>
      if t then (parts.join ∘ Sum.inr) <$> ofRight.read source d
      else (parts.join ∘ Sum.inl) <$> ofLeft.read source d
    match d with
    | .list [] stop => do
      Draft.atEnd stop
      .error (.misfit (.shortUnion 0 name))
    | .list [t] stop => do
      let _ ← readTag t
      Draft.atEnd stop
      .error (.misfit (.shortUnion 1 name))
    | .list (t :: v :: more) stop => do
      let t ← readTag t
      let c ← readValue t source.inner v
      source.afterFields 2 more stop
      return c
    | .object members stop => do
      let read ← members.foldlM
        (fun read m => do
          let key ← Draft.keyText m.1
          Tagged.member readTag readValue source.inner key m.2 read)
        .nothing
      Draft.atEnd stop
      read.finish
    | d => .error (d.unwanted (.union name))

/-- Reads a member into its slot; none if no field has its key. -/
def Fields.put (source : Source) {β σ : Type} :
    Fields β σ → String → Draft → σ → Option (Except Fault σ)
  | .nil, _, _, () => none
  | .cons key shape _ rest, k, d, (slot, slots) =>
    if k = key then
      some <|
        match slot with
        | some _ => .error (.misfit (.duplicateField key))
        | none => (fun a => (some a, slots)) <$> shape.read source d
    else (rest.put source k d slots).map ((fun slots => (slot, slots)) <$> ·)

/-- Reads the fields of a record `name` of `size` fields from a list, `given` of them being read. -/
def Fields.readItems (source : Source) (name : String) (size : Nat) {β σ : Type} (given : Nat) :
    Fields β σ → List Draft → Option Gap → Except Fault β
  | .nil, more, stop => source.afterFields given more stop
  | .cons _ shape presence rest, items, stop =>
    match items with
    | [] => do
      Draft.atEnd stop
      match presence.inList with
      | some a => do
        let b ← rest.readItems source name size (given + 1) [] stop
        return (a, b)
      | none => .error (.misfit (.shortRecord given name size))
    | d :: ds => do
      let a ← shape.read source d
      let b ← rest.readItems source name size (given + 1) ds stop
      return (a, b)

end

/-- Reads a text that is to hold one value and nothing else. -/
def Shape.ofString {α : Type} (shape : Shape α) (s : String) : Except Fault α := do
  let (d, rest) := Draft.ofChars s.toList
  let a ← shape.read (.text 0) d
  if rest.isEmpty then return a else .error .malformed

end ButtonStyle

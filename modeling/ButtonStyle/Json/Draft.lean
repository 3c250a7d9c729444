import ButtonStyle.Json.Basic
import ButtonStyle.Json.Token

/-!
# Drafts of documents

A draft is a document as far as its text can be followed.  If the text breaks off or goes wrong,
the draft holds all that stands before, in its place, and the gap where the fault is; the lists and
objects around the fault are then left open.  So whoever reads a draft from left to right meets
the problems of the text in their order.

A draft is put together from tokens with a stack of the lists and objects that are still open.
-/

namespace ButtonStyle.Json

/-- The key of a member. -/
inductive Key
  | text (value : String)
  | unpaired
  /-- No key stands where one should. -/
  | broken (gap : Gap)
deriving DecidableEq

/-- A document as far as its text can be followed.  `stop` is none for a list or object that is
closed, and else the gap at or within its end. -/
inductive Draft
  | null
  | flag (value : Bool)
  | number (literal : Literal)
  | text (value : String)
  | unpaired
  | gap (gap : Gap)
  | list (items : List Draft) (stop : Option Gap)
  | object (members : List (Key × Draft)) (stop : Option Gap)

/-- A list or object that is still open, its entries last first. -/
inductive Frame
  | list (items : List Draft)
  | object (members : List (Key × Draft))
  /-- An object whose last member waits for its value. -/
  | member (members : List (Key × Draft)) (key : Key)

namespace Frame

/-- Adds a value. -/
def put (d : Draft) : Frame → Frame
  | list items => list (d :: items)
  | object members => object members
  | member members key => object ((key, d) :: members)

/-- Ends a list or object. -/
def close (stop : Option Gap) : Frame → Draft
  | list items => .list items.reverse stop
  | object members => .object members.reverse stop
  | member members _ => .object members.reverse stop

/-- Waits for the value of a key. -/
def await (key : Key) : Frame → Frame
  | object members => member members key
  | frame => frame

/-- Gives up at a place where a key should stand. -/
def withoutKey (gap : Gap) : Frame → Draft
  | object members => .object ((.broken gap, .gap gap) :: members).reverse (some gap)
  | frame => frame.close (some gap)

end Frame

namespace Draft

/-- Gives up within `frames`, the innermost first, `d` being the value that is under way. -/
def abandon (gap : Gap) (d : Draft) : List Frame → Draft
  | [] => d
  | frame :: frames => abandon gap ((frame.put d).close (some gap)) frames

/-- What may come next. -/
inductive Wanted
  | value
  /-- The first item, or the end of the list. -/
  | item
  /-- A comma, or the end of the list or object. -/
  | more
  /-- The first key, or the end of the object. -/
  | firstKey
  | key
  | colon

/-- The draft of a token that is a whole value. -/
def ofToken? : Token → Option Draft
  | .null => some null
  | .flag b => some (flag b)
  | .number l => some (number l)
  | .text s => some (text s)
  | .unpaired => some unpaired
  | _ => none

/-- The gap that a token makes where it cannot stand. -/
def gapAt : Token → Gap
  | .gap g => g
  | _ => .stray

/-- The gap that a token makes where a key should stand. -/
def gapAtKey : Token → Gap
  | .gap (.cutText sound) => .cutText sound
  | .null => .misplaced .null
  | .flag b => .misplaced (.flag b)
  | .number l => (l.found?.map Gap.misplaced).getD .stray
  | .openList => .misplaced .list
  | .openObject => .misplaced .object
  | _ => .stray

/-- The key that a token is. -/
def keyOf? : Token → Option Key
  | .text s => some (.text s)
  | .unpaired => some .unpaired
  | _ => none

/-- Where a token leads. -/
inductive Step
  | on (wanted : Wanted) (frames : List Frame)
  /-- The outermost value is complete. -/
  | whole (d : Draft)
  /-- The text cannot be followed beyond the token. -/
  | stuck (d : Draft)

/-- Goes on after a complete value. -/
def complete (d : Draft) : List Frame → Step
  | [] => .whole d
  | frame :: frames => .on .more (frame.put d :: frames)

/-- Begins a value with a token. -/
def beginValue (frames : List Frame) : Token → Step
  | .openList => .on .item (.list [] :: frames)
  | .openObject => .on .firstKey (.object [] :: frames)
  | t =>
    match ofToken? t with
    | some d => complete d frames
    | none => .stuck (abandon (gapAt t) (gap (gapAt t)) frames)

/-- Reads a token as a key in `frame`. -/
def beginMember (frame : Frame) (frames : List Frame) (t : Token) : Step :=
  match keyOf? t with
  | some key => .on .colon (frame.await key :: frames)
  | none => .stuck (abandon (gapAtKey t) (frame.withoutKey (gapAtKey t)) frames)

/-- Follows one token. -/
def step : Wanted → List Frame → Token → Step
  | .value, frames, t => beginValue frames t
  | .item, frame :: frames, .closeList => complete (frame.close none) frames
  | .item, frames, t => beginValue frames t
  | .more, .list items :: frames, .comma => .on .value (.list items :: frames)
  | .more, .list items :: frames, .closeList => complete ((Frame.list items).close none) frames
  | .more, .object members :: frames, .comma => .on .key (.object members :: frames)
  | .more, .object members :: frames, .closeObject =>
    complete ((Frame.object members).close none) frames
  | .firstKey, frame :: frames, .closeObject => complete (frame.close none) frames
  | .firstKey, frame :: frames, t => beginMember frame frames t
  | .key, frame :: frames, t => beginMember frame frames t
  | .colon, frames, .colon => .on .value frames
  | .colon, frames, _ => .stuck (abandon .stray (gap .stray) frames)
  | _, frame :: frames, _ => .stuck (abandon .stray (frame.close (some .stray)) frames)
  | _, [], _ => .stuck (gap .stray)

/-- What there is when the tokens end. -/
def unfinished : Wanted → List Frame → Draft
  | .value, frames => abandon .ended (gap .ended) frames
  | .colon, frames => abandon .ended (gap .ended) frames
  | .key, frame :: frames => abandon .ended (frame.withoutKey .ended) frames
  | _, frame :: frames => abandon .ended (frame.close (some .ended)) frames
  | _, [] => gap .ended

/-- Follows the tokens until the outermost value is complete, and leaves those that come after. -/
def follow (wanted : Wanted) (frames : List Frame) : List Token → Draft × List Token
  | [] => (unfinished wanted frames, [])
  | t :: ts =>
    match step wanted frames t with
    | .on wanted frames => follow wanted frames ts
    | .whole d => (d, ts)
    | .stuck d => (d, [])

/-- The draft of a text, and the tokens after its value. -/
def ofChars (cs : List Char) : Draft × List Token := follow .value [] (Token.ofChars cs)

/-! ### Drafts of whole documents -/

mutual

/-- The document of a draft without gaps. -/
def document? : Draft → Option Json
  | null => some .null
  | flag b => some (.flag b)
  | number l => some (.number l)
  | text s => some (.text s)
  | unpaired => none
  | gap _ => none
  | list _ (some _) => none
  | list items none => (documents? items).map .list
  | object _ (some _) => none
  | object members none => (documentMembers? members).map .object

/-- The documents of a list of drafts. -/
def documents? : List Draft → Option (List Json)
  | [] => some []
  | d :: ds => do
    let j ← document? d
    let js ← documents? ds
    return j :: js

/-- The members of an object without gaps. -/
def documentMembers? : List (Key × Draft) → Option (List (String × Json))
  | [] => some []
  | (key, d) :: rest => do
    let .text s := key | none
    let j ← document? d
    let js ← documentMembers? rest
    return (s, j) :: js

end

end Draft

/-- The document that a text is. -/
def ofString? (s : String) : Option Json :=
  match Draft.ofChars s.toList with
  | (d, []) => d.document?
  | (_, _ :: _) => none

end ButtonStyle.Json

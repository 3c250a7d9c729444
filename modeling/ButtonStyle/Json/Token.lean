import ButtonStyle.Number.Text

/-!
# JSON tokens

A text is cut into tokens from left to right.  Where it cannot be cut any further there is a last
token that says why, a `Gap`: what stands before a fault in a text is still read, so that a problem
there is noticed first.

A string whose escapes leave a surrogate alone stands for no text, yet it can be passed over like
any other string; it is the token `unpaired`.
-/

namespace ButtonStyle.Json

/-- What stands at a place, told from what was wanted there. -/
inductive Found
  | null
  | flag (value : Bool)
  | integer (value : Int)
  /-- A number with point or exponent, or an integer beyond the 64-bit range. -/
  | decimal (value : Number)
  | text (value : String)
  | list
  | object
deriving DecidableEq

/-- What a literal is found to be; none if its number is too large.  Negative zero is no integer,
as integers have one zero. -/
def Literal.found? (l : Literal) : Option Found :=
  let integer :=
    if l.negative then l.whole != 0 && l.whole ≤ Nat.pow 2 63 else l.whole < Nat.pow 2 64
  if l.isInteger && integer then
    some (.integer (if l.negative then -(l.whole : Int) else l.whole))
  else l.number?.map .decimal

/-- Why a text cannot be followed beyond some place. -/
inductive Gap
  /-- The text ends where more is needed. -/
  | ended
  /-- No JSON text goes on in this way. -/
  | stray
  /-- As `stray`, with something there that would be in order elsewhere. -/
  | misplaced (found : Found)
  /-- The text ends within `null`. -/
  | cutNull
  /-- The text ends within `true` or `false`. -/
  | cutFlag
  /-- The text ends within a number. -/
  | cutNumber
  /-- The text ends within a string; `sound` tells whether no surrogate was left alone in it. -/
  | cutText (sound : Bool)
deriving DecidableEq

/-- A token of a JSON text. -/
inductive Token
  | openList
  | closeList
  | openObject
  | closeObject
  | comma
  | colon
  | null
  | flag (value : Bool)
  | number (literal : Literal)
  | text (value : String)
  | unpaired
  /-- Only at the end: the text is not followed beyond. -/
  | gap (gap : Gap)
deriving DecidableEq

namespace Token

/-! ### Words -/

/-- Reads `word`, which is to be the token `token`. -/
def word (token : Token) (cut : Gap) : List Char → List Char → Token × List Char
  | [], rest => (token, rest)
  | _ :: _, [] => (gap cut, [])
  | w :: ws, c :: rest => if w = c then word token cut ws rest else (gap .stray, [])

/-! ### Numbers -/

/-- The digits at the front, and the rest. -/
def leadingDigits : List Char → List Digit × List Char
  | [] => ([], [])
  | c :: cs =>
    match Digit.ofChar? c with
    | some d => ((leadingDigits cs).map (d :: ·) id)
    | none => ([], c :: cs)

/-- The token for a number that breaks off before `rest`. -/
def brokenNumber (rest : List Char) : Token × List Char :=
  (gap (if rest.isEmpty then .cutNumber else .stray), [])

/-- The sign of an exponent, and what follows it: whether it is a minus. -/
def exponentSign : List Char → Bool × List Char
  | '-' :: cs => (true, cs)
  | '+' :: cs => (false, cs)
  | cs => (false, cs)

/-- Reads an exponent, if there is one, after the other parts of a number. -/
def exponent (negative : Bool) (whole : Nat) (fraction : List Digit) :
    List Char → Token × List Char
  | [] => (number ⟨negative, whole, fraction, none⟩, [])
  | c :: cs =>
    if c = 'e' ∨ c = 'E' then
      match leadingDigits (exponentSign cs).2 with
      | ([], rest) => brokenNumber rest
      | (ds, rest) =>
        let e := Digits.value ds
        (number ⟨negative, whole, fraction,
          some (if (exponentSign cs).1 then -(e : Int) else e)⟩, rest)
    else (number ⟨negative, whole, fraction, none⟩, c :: cs)

/-- Reads a fraction, if there is one, and what follows it. -/
def fraction (negative : Bool) (whole : Nat) : List Char → Token × List Char
  | '.' :: cs =>
    match leadingDigits cs with
    | ([], rest) => brokenNumber rest
    | (ds, rest) => exponent negative whole ds rest
  | cs => exponent negative whole [] cs

/-- Reads a number after its sign.  No zero stands in front of further digits. -/
def unsigned (negative : Bool) (cs : List Char) : Token × List Char :=
  match leadingDigits cs with
  | ([], rest) => brokenNumber rest
  | ([d], rest) => fraction negative d.val rest
  | (d :: ds, rest) =>
    if d = .zero then (gap .stray, []) else fraction negative (Digits.value (d :: ds)) rest

/-! ### Strings -/

/-- The value of a hexadecimal digit. -/
def hexDigit? (c : Char) : Option Nat :=
  if '0' ≤ c ∧ c ≤ '9' then some (c.toNat - 48)
  else if 'a' ≤ c ∧ c ≤ 'f' then some (c.toNat - 87)
  else if 'A' ≤ c ∧ c ≤ 'F' then some (c.toNat - 55)
  else none

/-- The code unit that four hexadecimal digits spell. -/
def codeUnit? (a b c d : Char) : Option Nat := do
  let a ← hexDigit? a
  let b ← hexDigit? b
  let c ← hexDigit? c
  let d ← hexDigit? d
  return ((a * 16 + b) * 16 + c) * 16 + d

/-- Whether a code unit is the first half of a surrogate pair. -/
def isHigh (u : Nat) : Bool := 0xd800 ≤ u && u < 0xdc00

/-- Whether a code unit is the second half of a surrogate pair. -/
def isLow (u : Nat) : Bool := 0xdc00 ≤ u && u < 0xe000

/-- The character of a surrogate pair. -/
def paired (high low : Nat) : Char :=
  Char.ofNat ((high - 0xd800) * 0x400 + (low - 0xdc00) + 0x10000)

/-- The character that a one-letter escape stands for. -/
def escaped? (c : Char) : Option Char :=
  if c = '"' then some '"'
  else if c = '\\' then some '\\'
  else if c = '/' then some '/'
  else if c = 'b' then some '\x08'
  else if c = 'f' then some '\x0c'
  else if c = 'n' then some '\n'
  else if c = 'r' then some '\r'
  else if c = 't' then some '\t'
  else none

/-- How many bytes a list of characters takes in UTF-8. -/
def bytes (cs : List Char) : Nat := cs.foldl (fun n c => n + c.utf8Size) 0

/-- Reads a string after its opening quote.  `done` are the characters so far, last first; `high`
is a first half of a pair that has just been read; `sound` tells whether every half before had its
partner. -/
def string (done : List Char) (high : Option Nat) (sound : Bool) : List Char → Token × List Char
  | [] => (gap (.cutText sound), [])
  | '"' :: rest =>
    if sound && high.isNone then (text (String.ofList done.reverse), rest) else (unpaired, rest)
  | '\\' :: 'u' :: a :: b :: c :: d :: rest =>
    match codeUnit? a b c d with
    | none => (gap .stray, [])
    | some u =>
      if isLow u then
        match high with
        | some h => string (paired h u :: done) none sound rest
        | none => string done none false rest
      else if isHigh u then string done (some u) (sound && high.isNone) rest
      else string (Char.ofNat u :: done) none (sound && high.isNone) rest
  | '\\' :: 'u' :: rest =>
    (gap (if bytes rest < 4 then .cutText sound else .stray), [])
  | '\\' :: c :: rest =>
    match escaped? c with
    | some c => string (c :: done) none (sound && high.isNone) rest
    | none => (gap .stray, [])
  | ['\\'] => (gap (.cutText sound), [])
  | c :: rest =>
    if c.toNat < 0x20 then (gap .stray, [])
    else string (c :: done) none (sound && high.isNone) rest

/-! ### Texts -/

/-- Whether a character may stand between tokens. -/
def isSpace (c : Char) : Bool := c = ' ' || c = '\t' || c = '\n' || c = '\r'

/-- The token that is a single character. -/
def punctuation? (c : Char) : Option Token :=
  if c = '[' then some openList
  else if c = ']' then some closeList
  else if c = '\x7b' then some openObject
  else if c = '\x7d' then some closeObject
  else if c = ',' then some comma
  else if c = ':' then some colon
  else none

/-- The token that begins with `c`, and what follows it. -/
def leading (c : Char) (cs : List Char) : Token × List Char :=
  match punctuation? c with
  | some t => (t, cs)
  | none =>
    match c with
    | '"' => string [] none true cs
    | 'n' => word null .cutNull ['u', 'l', 'l'] cs
    | 't' => word (flag true) .cutFlag ['r', 'u', 'e'] cs
    | 'f' => word (flag false) .cutFlag ['a', 'l', 's', 'e'] cs
    | '-' => unsigned true cs
    | c => if (Digit.ofChar? c).isSome then unsigned false (c :: cs) else (gap .stray, [])

/-! ### Every token takes up some of the text -/

theorem length_word (token : Token) (cut : Gap) (w cs : List Char) :
    (word token cut w cs).2.length ≤ cs.length := by
  fun_induction word token cut w cs
  all_goals simp_all
  all_goals omega

theorem length_leadingDigits (cs : List Char) :
    (leadingDigits cs).1.length + (leadingDigits cs).2.length = cs.length := by
  fun_induction leadingDigits cs
  all_goals simp_all
  all_goals omega

theorem length_brokenNumber (cs rest : List Char) :
    (brokenNumber rest).2.length ≤ cs.length := by
  simp [brokenNumber]

theorem length_exponentSign (cs : List Char) : (exponentSign cs).2.length ≤ cs.length := by
  unfold exponentSign
  split <;> simp

theorem length_exponent (negative : Bool) (whole : Nat) (ds : List Digit) (cs : List Char) :
    (exponent negative whole ds cs).2.length ≤ cs.length := by
  unfold exponent
  split
  · simp
  · rename_i c cs
    have := length_exponentSign cs
    have := length_leadingDigits (exponentSign cs).2
    split
    · split
      · exact length_brokenNumber _ _
      · rename_i h
        rw [h] at this
        simp only [List.length_cons] at *
        omega
    · simp

theorem length_fraction (negative : Bool) (whole : Nat) (cs : List Char) :
    (fraction negative whole cs).2.length ≤ cs.length := by
  unfold fraction
  split
  · rename_i cs
    have := length_leadingDigits cs
    split
    · exact length_brokenNumber _ _
    · rename_i ds rest _ h
      rw [h] at this
      have := length_exponent negative whole ds rest
      simp only [List.length_cons] at *
      omega
  · exact length_exponent ..

theorem length_unsigned (negative : Bool) (cs : List Char) :
    (unsigned negative cs).2.length ≤ cs.length - 1 := by
  unfold unsigned
  have := length_leadingDigits cs
  split
  · simp [brokenNumber]
  · rename_i d rest h
    rw [h] at this
    have := length_fraction negative d.val rest
    simp only [List.length_cons, List.length_nil] at *
    omega
  · rename_i d ds rest _ h
    rw [h] at this
    have := length_fraction negative (Digits.value (d :: ds)) rest
    split
    · simp
    · simp only [List.length_cons] at *
      omega

theorem length_string (done : List Char) (high : Option Nat) (sound : Bool) (cs : List Char) :
    (string done high sound cs).2.length ≤ cs.length := by
  fun_induction string done high sound cs
  all_goals first
    | exact Nat.zero_le _
    | (simp only [List.length_cons] at *; omega)

theorem length_leading (c : Char) (cs : List Char) : (leading c cs).2.length ≤ cs.length := by
  unfold leading
  split
  · exact Nat.le_refl _
  · split
    · exact length_string ..
    · exact length_word ..
    · exact length_word ..
    · exact length_word ..
    · exact Nat.le_trans (length_unsigned ..) (Nat.sub_le ..)
    · split
      · exact length_unsigned false (_ :: cs)
      · exact Nat.zero_le _

/-- The tokens of a text after those in `done`, which stand last first. -/
def cutFrom (done : List Token) : List Char → List Token
  | [] => done.reverse
  | c :: cs =>
    if isSpace c then cutFrom done cs
    else cutFrom ((leading c cs).1 :: done) (leading c cs).2
termination_by cs => cs.length
decreasing_by
  · simp
  · have := length_leading c cs
    simp only [List.length_cons]
    omega

/-- The tokens of a text. -/
def ofChars (cs : List Char) : List Token := cutFrom [] cs

end Token

end ButtonStyle.Json

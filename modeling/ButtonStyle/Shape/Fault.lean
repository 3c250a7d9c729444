import ButtonStyle.Json.Token
import ButtonStyle.Text.Quoted

/-!
# What can be wrong with a text that is to be read

A text may end too early, be no JSON, or be JSON that does not fit.  Only for the last are there
words, `Misfit.message`.
-/

namespace ButtonStyle

/-- What is wanted at a place. -/
inductive Expected
  | number
  | text
  | flag
  | list
  | record (name : String)
  | union (name : String)
  | nothing
  /-- The name of a choice, as key of an object. -/
  | choice
  /-- A choice in a document that is already held as a whole. -/
  | nameOrObject
deriving DecidableEq

/-- Why a JSON document does not fit. -/
inductive Misfit
  | missingField (key : String)
  | duplicateField (key : String)
  | wrongType (found : Json.Found) (expected : Expected)
  | unknownName (name : String) (known : List String)
  /-- A list of the fields of a record that ends before a required one. -/
  | shortRecord (given : Nat) (name : String) (fields : Nat)
  /-- A list for a union without tag or value. -/
  | shortUnion (given : Nat) (name : String)
  /-- A list, held as a whole, of more items than there are fields. -/
  | longList (given : Nat) (wanted : Nat)
  /-- An object for a choice, held as a whole, without exactly one key. -/
  | notSingleKey
deriving DecidableEq

/-- What is wrong with a text. -/
inductive Fault
  /-- The text ends too early. -/
  | cut
  /-- The text is no JSON, or no JSON that the reader has a use for. -/
  | malformed
  /-- The JSON document does not fit. -/
  | misfit (why : Misfit)
deriving DecidableEq

namespace Expected

/-- A description of what is wanted. -/
def describe : Expected → String
  | number => "f64"
  | text => "a string"
  | flag => "a boolean"
  | list => "a sequence"
  | record name => "struct " ++ name
  | union name => "adjacently tagged enum " ++ name
  | nothing => "unit"
  | choice => "variant identifier"
  | nameOrObject => "string or map"

end Expected

/-- A description of what is found. -/
def Json.Found.describe : Json.Found → String
  | .null => "null"
  | .flag b => "boolean `" ++ String.ofList (if b then "true".toList else "false".toList) ++ "`"
  | .integer n => "integer `" ++ toString n ++ "`"
  | .decimal x => "floating point `" ++ String.ofList x.literal.chars ++ "`"
  | .text s => "string " ++ Text.quoted s
  | .list => "sequence"
  | .object => "map"

namespace Misfit

/-- A name in backquotes. -/
def named (s : String) : String := "`" ++ s ++ "`"

/-- The names that would have been known. -/
def oneOf : List String → String
  | [] => "there are no variants"
  | [a] => "expected " ++ named a
  | [a, b] => "expected " ++ named a ++ " or " ++ named b
  | names => "expected one of " ++ String.intercalate ", " (names.map named)

/-- The words for a misfit. -/
def message : Misfit → String
  | missingField key => "missing field " ++ named key
  | duplicateField key => "duplicate field " ++ named key
  | wrongType found expected =>
    "invalid type: " ++ found.describe ++ ", expected " ++ expected.describe
  | unknownName name known => "unknown variant " ++ named name ++ ", " ++ oneOf known
  | shortRecord given name fields =>
    "invalid length " ++ toString given ++ ", expected struct " ++ name ++ " with " ++
      toString fields ++ (if fields = 1 then " element" else " elements")
  | shortUnion given name =>
    "invalid length " ++ toString given ++ ", expected adjacently tagged enum " ++ name
  | longList given wanted =>
    "invalid length " ++ toString given ++ ", expected " ++ toString wanted ++
      (if wanted = 1 then " element in sequence" else " elements in sequence")
  | notSingleKey => "invalid value: map, expected map with a single key"

end Misfit

end ButtonStyle

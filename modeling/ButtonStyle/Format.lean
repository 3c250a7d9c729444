import ButtonStyle.ClassList
import ButtonStyle.Css.Stylesheet
import ButtonStyle.TokenDocument

/-!
# Export formats

The three texts that a button can be turned into.
-/

namespace ButtonStyle

/-- The format of an export. -/
inductive Format
  | css
  | tailwind
  | tokens
deriving DecidableEq

instance : Named Format where
  all := [.css, .tailwind, .tokens]
  name
    | .css => "css"
    | .tailwind => "tailwind"
    | .tokens => "tokens"

instance : Inhabited Format := ⟨.css⟩

/-- A name that is the name of no format, as it was given. -/
structure UnknownFormat where
  name : String
deriving DecidableEq

namespace UnknownFormat

/-- The words for an unknown format. -/
def message (e : UnknownFormat) : String := "unknown export format '" ++ e.name ++ "'"

end UnknownFormat

namespace Format

/-- The format of a name.  Blanks around the name and the case of ASCII letters are of no
importance. -/
def ofString? (s : String) : Option Format :=
  Named.ofName? (String.ofList ((Text.trimChars s.toList).map Char.toLower))

/-- The format of a name, or the name that is unknown. -/
def parse (s : String) : Except UnknownFormat Format :=
  match ofString? s with
  | some format => .ok format
  | none => .error ⟨s⟩

end Format

/-- The text of a button in a format. -/
def Button.generate (b : Button) : Format → String
  | .css => b.stylesheet
  | .tailwind => b.classList
  | .tokens => b.tokens

end ButtonStyle

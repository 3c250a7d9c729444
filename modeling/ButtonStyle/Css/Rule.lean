import ButtonStyle.Text.Blank

/-!
# CSS rules

A rule gives the properties of what its selectors select.  It is written over several lines, each
declaration on a line of its own, and may have a comment before it.
-/

namespace ButtonStyle.Css

/-- A property and its value. -/
structure Declaration where
  property : String
  value : String
deriving DecidableEq

/-- A rule. -/
structure Rule where
  comment : Option String := none
  selectors : List String
  declarations : List Declaration
deriving DecidableEq

namespace Declaration

/-- The line of a declaration. -/
def css (d : Declaration) : String := "  " ++ d.property ++ ": " ++ d.value ++ ";\n"

end Declaration

namespace Rule

/-- The line of the comment, if there is one. -/
def commentCss (r : Rule) : String :=
  match r.comment with
  | some text => "/* " ++ text ++ " */\n"
  | none => ""

/-- The text of a rule, without an end of line after it. -/
def css (r : Rule) : String :=
  r.commentCss ++ String.intercalate ", " r.selectors ++ " \x7b\n" ++
    String.join (r.declarations.map Declaration.css) ++ "\x7d"

/-- The value that a rule declares for a property, if it declares one. -/
def value? (r : Rule) (property : String) : Option String :=
  (r.declarations.find? fun d => d.property == property).map Declaration.value

end Rule

end ButtonStyle.Css

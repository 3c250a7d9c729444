import ButtonStyle.Button.Shapes
import ButtonStyle.Number.Text
import ButtonStyle.Shape.Writer

/-!
# Token documents

A button as a JSON document for other tools.  The look at rest is given by its colors alone, and of
the other states all but loading are given.  Whole numbers are written as integers.
-/

namespace ButtonStyle

/-- The states whose looks a token document holds. -/
def State.tokenVariants : List State := [.hover, .active, .focus, .disabled]

namespace Button

/-- The document of a value in a token document. -/
def token {α : Type} (shape : Shape α) (a : α) : Json := shape.write Number.compactLiteral a

/-- The token document of a button. -/
def tokenDocument (b : Button) : Json :=
  let rest := b.look .default
  .object
    [("base", .object
      [("background", token Fill.shape rest.background),
       ("text", .text rest.textColor),
       ("border", .text rest.borderColor)]),
     ("typography", token Typography.shape b.typography),
     ("layout", token Layout.shape b.layout),
     ("motion", token Motion.shape b.motion),
     ("effects", token Effects.shape b.effects),
     ("variants", .object (State.tokenVariants.map fun s =>
       (Named.name s, token Look.shape (b.look s))))]

/-- The text of the token document. -/
def tokens (b : Button) : String := b.tokenDocument.toPretty

end Button

end ButtonStyle

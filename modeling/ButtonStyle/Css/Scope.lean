import ButtonStyle.Css.Stylesheet

/-!
# Scoping

A stylesheet is tied to one element by replacing each selector of all buttons by the id of the
element.  Longer names that begin like the selector stay as they are.
-/

namespace ButtonStyle.Css

/-- Whether a character after a class makes it a longer class. -/
def continuesClass (c : Char) : Bool := c.isAlphanum || c = '-' || c = '_'

/-- Whether the class whose name ends before `rest` is longer than that. -/
def isLonger (rest : List Char) : Bool := rest.head?.any continuesClass

/-- Replaces each `pattern` that no longer name begins with, looking from left to right and behind
each place where the pattern stands. -/
def replaceName (pattern replacement : List Char) : List Char → List Char
  | [] => []
  | c :: cs =>
    if pattern ≠ [] ∧ pattern.isPrefixOf (c :: cs) then
      let rest := (c :: cs).drop pattern.length
      (if isLonger rest then pattern else replacement) ++ replaceName pattern replacement rest
    else c :: replaceName pattern replacement cs
termination_by cs => cs.length
decreasing_by
  · rename_i h
    have := List.length_pos_iff.mpr h.1
    simp only [List.length_drop, List.length_cons]
    omega
  · simp

/-- The text with the element `id` in place of all buttons. -/
def scopedTo (id : String) (css : String) : String :=
  String.ofList (replaceName buttonSelector.toList ('#' :: id.toList) css.toList)

/-- The id that a preview has unless another one is asked for. -/
def previewId : String := "preview-button"

end ButtonStyle.Css

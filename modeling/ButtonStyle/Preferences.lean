import ButtonStyle.Format

/-!
# Preferences

What a user has settled once for all exports.  Either preference may be left open.
-/

namespace ButtonStyle

/-- The preferences of a user. -/
structure Preferences where
  format : Option Format := none
  /-- The element that stylesheets are scoped to. -/
  previewId : Option String := none
deriving DecidableEq

namespace Preferences

open Fields Presence

/-- The shape of preferences. -/
def shape : Shape Preferences :=
  .record "AppConfig"
    (cons "default_format" (.option .choice) (filledWith none) <|
     cons "preview_element_id" (.option .text) (filledWith none) nil)
    { join := fun (format, previewId, ()) => ⟨format, previewId⟩
      split := fun p => (p.format, p.previewId, ()) }

end Preferences

end ButtonStyle

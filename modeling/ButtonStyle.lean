import ButtonStyle.Button.Edit
import ButtonStyle.Main
import ButtonStyle.Proofs.Digits
import ButtonStyle.Proofs.Number.Nearest
import ButtonStyle.Proofs.Number.ReadBack
import ButtonStyle.Proofs.Json.Spelling
import ButtonStyle.Proofs.Json.Document
import ButtonStyle.Proofs.Shape.Finite
import ButtonStyle.Proofs.Shape.RoundTrip
import ButtonStyle.Proofs.Json.Torn
import ButtonStyle.Proofs.Preset.RoundTrip
import ButtonStyle.Proofs.Preset.Store
import ButtonStyle.Proofs.Preset.Torn
import ButtonStyle.Proofs.Disk.Files
import ButtonStyle.Proofs.Files
import ButtonStyle.Proofs.Preset.Opening
import ButtonStyle.Proofs.Preset.Sharing
import ButtonStyle.Proofs.Procedure
import ButtonStyle.Proofs.Program
import ButtonStyle.Proofs.Requests
import ButtonStyle.Proofs.Preset.Exporting
import ButtonStyle.Proofs.Number.Compact
import ButtonStyle.Proofs.Number.Text
import ButtonStyle.Proofs.Number.Quantity
import ButtonStyle.Proofs.Number.Rounding
import ButtonStyle.Proofs.Number.Notation
import ButtonStyle.Proofs.Shape.Value
import ButtonStyle.Proofs.Button.Value
import ButtonStyle.Proofs.TokenDocument
import ButtonStyle.Proofs.Css.Composition
import ButtonStyle.Proofs.Css.Layers
import ButtonStyle.Proofs.Css.Reading
import ButtonStyle.Proofs.Css.Stylesheet
import ButtonStyle.Proofs.Css.Scope
import ButtonStyle.Proofs.States
import ButtonStyle.Proofs.Button.Text
import ButtonStyle.Proofs.Json.Depth
import ButtonStyle.Proofs.Shape.Denotation
import ButtonStyle.Proofs.Button.Reading
import ButtonStyle.Proofs.Text.Words
import ButtonStyle.Proofs.ClassList.Reading
import ButtonStyle.Proofs.ClassList.Values
import ButtonStyle.Proofs.ClassList.Agreement
import ButtonStyle.Proofs.ClassList.Fallback
import ButtonStyle.Proofs.ClassList.Spacing
import ButtonStyle.Proofs.Session.Commands
import ButtonStyle.Proofs.Session.Delivery
import ButtonStyle.Proofs.Css.Occurrences
import ButtonStyle.Proofs.Button.Edits
import ButtonStyle.Proofs.Button.Forms
import ButtonStyle.Proofs.ClassList.Collapse
import ButtonStyle.Proofs.Css.Terms
import ButtonStyle.Proofs.Css.Neighbors
import ButtonStyle.Proofs.CommandLine.RoundTrip
import ButtonStyle.Proofs.CommandLine.Unambiguous
import ButtonStyle.Proofs.Session.Unread
import ButtonStyle.Proofs.Format

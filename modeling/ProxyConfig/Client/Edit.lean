import ProxyConfig.Client.Position

/-! # Edits

A client changes a text by replacing a range of it.
-/

namespace ProxyConfig

/-- A range of a document and the text to put there. -/
structure TextEdit where
  range : ClientRange
  newText : String
deriving DecidableEq

def TextEdit.toJson (edit : TextEdit) : Json :=
  .object [("range", edit.range.toJson), ("newText", .string edit.newText)]

end ProxyConfig

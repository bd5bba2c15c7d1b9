import ProxyConfig.Text.Blank

/-! # TOML values

A table remembers how it came to be, because that decides who may still add to it: a table with a
header of its own is closed, one that only stands in longer headers may get its own header once, and
one that dotted keys made may get more dotted keys but no header.
-/

namespace ProxyConfig

namespace Toml

/-- How a table came to be. -/
inductive Origin where
  /-- By a header of its own, or between braces. -/
  | header
  /-- By the header of a table below it. -/
  | implied
  /-- By dotted keys. -/
  | dotted
deriving DecidableEq

/-- Where a table is written: in braces, or over lines of its own. -/
inductive Form where
  | inline
  | block
deriving DecidableEq

end Toml

/-- A value of a TOML document. Of numbers with a fraction and of dates only the spelling is kept. -/
inductive Toml where
  | string (text : Text)
  | integer (value : Int)
  | float (spelling : Text)
  | boolean (value : Bool)
  | moment (spelling : Text)
  | array (items : List Toml)
  | table (form : Toml.Form) (origin : Toml.Origin) (fields : List (Text × Toml))
  /-- Tables with the same header in double brackets. -/
  | tables (items : List (List (Text × Toml)))

/-- The fields of a table in the order in which they were defined. -/
abbrev Toml.Fields := List (Text × Toml)

end ProxyConfig

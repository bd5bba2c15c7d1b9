import ProxyConfig.Json.Pretty

/-! # JSON on one line

The text of a value without any blanks between its parts.
-/

namespace ProxyConfig.Json

mutual

/-- The text of a value on one line. -/
def compact : Json → String
  | .null => "null"
  | .bool b => if b then "true" else "false"
  | .integer n => toString n
  | .decimal digits => digits
  | .string s => quote s
  | .array items => "[" ++ ",".intercalate (compactItems items) ++ "]"
  | .object fields => "\x7b" ++ ",".intercalate (compactFields fields) ++ "\x7d"

def compactItems : List Json → List String
  | [] => []
  | item :: items => compact item :: compactItems items

def compactField : String × Json → String
  | (name, value) => quote name ++ ":" ++ compact value

def compactFields : List (String × Json) → List String
  | [] => []
  | field :: fields => compactField field :: compactFields fields

end

end ProxyConfig.Json

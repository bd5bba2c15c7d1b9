/-! # JSON values

The values that reports are written as and that editors exchange. Fields keep the order in which
they are written, and a later field of the same name hides an earlier one.
-/

namespace ProxyConfig

/-- A JSON value. -/
inductive Json where
  | null
  | bool (value : Bool)
  | integer (value : Int)
  /-- A number with a fraction or an exponent, in its digits. -/
  | decimal (digits : String)
  | string (value : String)
  | array (items : List Json)
  | object (fields : List (String × Json))

namespace Json

/-- An unsigned number. -/
def ofNat (n : Nat) : Json := .integer n

/-- An object with the fields that are there. -/
def record (fields : List (String × Option Json)) : Json :=
  .object (fields.filterMap fun (name, value?) => value?.map (name, ·))

/-- The last field with the name. -/
def field? (json : Json) (name : String) : Option Json :=
  match json with
  | .object fields => fields.reverse.lookup name
  | _ => none

def string? : Json → Option String
  | .string s => some s
  | _ => none

def bool? : Json → Option Bool
  | .bool b => some b
  | _ => none

def array? : Json → Option (List Json)
  | .array items => some items
  | _ => none

/-- An integer from 0 to below the bound. -/
def natBelow? (bound : Nat) : Json → Option Nat
  | .integer (.ofNat n) => if n < bound then some n else none
  | _ => none

/-- The parts of a record with the given names. A record may also be written as the array of all its
parts in order. -/
def parts? (names : List String) : Json → Option (List (Option Json))
  | .object fields => some (names.map (field? (.object fields)))
  | .array items => if items.length = names.length then some (items.map some) else none
  | _ => none

/-- Reads a value that may also be left out or `null`. The outer option fails if it is there and
cannot be read. -/
def optional? {α : Type} (read : Json → Option α) : Option Json → Option (Option α)
  | none | some .null => some none
  | some json => (read json).map some

end Json

end ProxyConfig

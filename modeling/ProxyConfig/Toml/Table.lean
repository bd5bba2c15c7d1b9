import ProxyConfig.Toml.Value

/-! # Building TOML tables

A document is built by adding one assignment or one headed block at a time. Every function fails if
the addition would define something twice or would add to a table that is closed.
-/

namespace ProxyConfig.Toml

/-- A key with its dots resolved: the tables on the way and the last name. -/
structure Path where
  parents : List Text
  name : Text
deriving DecidableEq

/-- `parents.name = value`. -/
structure Assignment where
  path : Path
  value : Toml

namespace Fields

/-- Puts another value in the place of a field. -/
def replace (fields : Fields) (name : Text) (value : Toml) : Fields :=
  fields.map fun (n, v) => (n, if n = name then value else v)

/-- Adds a field, unless the name is taken. -/
def add (fields : Fields) (name : Text) (value : Toml) : Option Fields :=
  match fields.lookup name with
  | none => some (fields ++ [(name, value)])
  | some _ => none

/-- Whether a dotted key may go on in a table, and may end there. -/
def admits (origin : Origin) (parents : List Text) : Bool :=
  origin == .dotted || (origin == .implied && !parents.isEmpty)

/-- Adds a value under a dotted key. Tables on the way are made as needed. A table that is there
must not have a header of its own, and the one that gets the value must come from dotted keys. -/
def assignAt (form : Form) (name : Text) (value : Toml) : List Text → Fields → Option Fields
  | [], fields => fields.add name value
  | key :: parents, fields =>
    match fields.lookup key with
    | none => do
      let inner ← assignAt form name value parents []
      some (fields ++ [(key, .table form .dotted inner)])
    | some (.table found origin inner) =>
      if found = form ∧ admits origin parents then do
        let inner ← assignAt form name value parents inner
        some (fields.replace key (.table form origin inner))
      else none
    | some (.tables items) =>
      match items.getLast? with
      | none => none
      | some last =>
        if parents.isEmpty then none
        else do
          let inner ← assignAt form name value parents last
          some (fields.replace key (.tables (items.dropLast ++ [inner])))
    | some _ => none

/-- Carries out assignments one after the other. -/
def assignAll (form : Form) (fields : Fields) (assignments : List Assignment) : Option Fields :=
  assignments.foldlM (fun fields a => assignAt form a.path.name a.value a.path.parents fields) fields

/-- Changes the table that the names of a header lead to. A repeated table stands for its last one. -/
def modifyAt (change : Fields → Option Fields) : List Text → Fields → Option Fields
  | [], fields => change fields
  | key :: parents, fields =>
    match fields.lookup key with
    | none => do
      let inner ← modifyAt change parents []
      some (fields ++ [(key, .table .block .implied inner)])
    | some (.table .block origin inner) => do
      let inner ← modifyAt change parents inner
      some (fields.replace key (.table .block origin inner))
    | some (.tables items) =>
      match items.getLast? with
      | none => none
      | some last => do
        let inner ← modifyAt change parents last
        some (fields.replace key (.tables (items.dropLast ++ [inner])))
    | some _ => none

/-- Defines the table of a header in single brackets. If longer headers implied it, it keeps what is
in it, but moves to the end. -/
def addTable (name : Text) (body : List Assignment) (fields : Fields) : Option Fields := do
  let start ← match fields.lookup name with
    | none => some []
    | some (.table .block .implied inner) => some inner
    | some _ => none
  let inner ← assignAll .block start body
  some ((fields.filter fun (n, _) => n != name) ++ [(name, .table .block .header inner)])

/-- Adds a table under a header in double brackets. -/
def addRepeated (name : Text) (body : List Assignment) (fields : Fields) : Option Fields := do
  let inner ← assignAll .block [] body
  match fields.lookup name with
  | none => some (fields ++ [(name, .tables [inner])])
  | some (.tables items) => some (fields.replace name (.tables (items ++ [inner])))
  | some _ => none

end Fields

/-- A header and the assignments below it. -/
structure Block where
  path : Path
  /-- Whether the header is in double brackets. -/
  repeated : Bool
  body : List Assignment

/-- Adds a block to a document. -/
def Fields.addBlock (fields : Fields) (block : Block) : Option Fields :=
  let change := if block.repeated then addRepeated else addTable
  modifyAt (change block.path.name block.body) block.path.parents fields

end ProxyConfig.Toml

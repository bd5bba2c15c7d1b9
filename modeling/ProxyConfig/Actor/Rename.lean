import ProxyConfig.Actor.Site

/-! # Renaming actors

A rename replaces every site of the name under the cursor. The new name is looked at first: a comma
or an `=` in it could not be read back.
-/

namespace ProxyConfig

/-- Why a rename is refused. -/
inductive RenameError where
  | invalidName (name : Text)
  | notRenameable

/-- The wording of a refusal. -/
def RenameError.message : RenameError → String
  | invalidName name =>
    s!"Invalid name \"{String.ofList name}\": names cannot contain \",\" or \"=\""
  | notRenameable => "Cannot rename the current element"

/-- The ranges to replace, and the old and the new name. -/
structure RenamePlan where
  oldName : Text
  newName : Text
  ranges : List Range

/-- Refuses names that hold an `=` or a comma, and no others. -/
def checkNewName (name : Text) : Except RenameError Unit :=
  if name.contains '=' || name.contains ',' then .error (.invalidName name) else .ok ()

/-- The plan to give the name under the cursor a new name. -/
def Document.planRename (doc : Document) (p : Position) (newName : Text) :
    Except RenameError RenamePlan := do
  checkNewName newName
  match doc.siteAt? p with
  | none => .error .notRenameable
  | some site =>
    match doc.sites site.name true with
    | [] => .error .notRenameable
    | sites => .ok ⟨site.name, newName, sites.map (·.range)⟩

end ProxyConfig

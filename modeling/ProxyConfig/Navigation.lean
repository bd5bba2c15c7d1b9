import ProxyConfig.Actor.Rename
import ProxyConfig.Client.Diagnostic
import ProxyConfig.Client.Edit

/-! # Navigation

A client asks about the actor name at its position: where it is declared, where else it stands, and
what to edit to give it another name.
-/

namespace ProxyConfig

/-- A rename in a client's coordinates. -/
structure ClientRename where
  oldName : Text
  newName : Text
  edits : List TextEdit

namespace ClientView

/-- The actor name at the client's position. -/
def siteAt? (view : ClientView) (p : ClientPosition) : Option NameSite :=
  view.doc.siteAt? (view.position p)

/-- Where the name at the position is declared. -/
def definition? (view : ClientView) (uri : Uri) (p : ClientPosition) : Option Location := do
  let site ← view.siteAt? p
  let declaration ← view.doc.declaration? site.name
  some ⟨uri, view.clientRange declaration.nameRange⟩

/-- Where the name at the position stands, in the order of the document. -/
def references (view : ClientView) (uri : Uri) (p : ClientPosition) (declarations : Bool) :
    List Location :=
  match view.siteAt? p with
  | none => []
  | some site =>
    (view.doc.sites site.name declarations).map fun s => ⟨uri, view.clientRange s.range⟩

/-- The name at the position, if there is one to rename. -/
def prepareRename? (view : ClientView) (p : ClientPosition) : Option (ClientRange × Text) :=
  (view.siteAt? p).map fun site => (view.clientRange site.range, site.name)

/-- The edits that give the name at the position another name. -/
def rename (view : ClientView) (p : ClientPosition) (newName : Text) :
    Except RenameError ClientRename :=
  (view.doc.planRename (view.position p) newName).map fun plan =>
    ⟨plan.oldName, plan.newName,
      plan.ranges.map fun range => ⟨view.clientRange range, String.ofList plan.newName⟩⟩

end ClientView

end ProxyConfig

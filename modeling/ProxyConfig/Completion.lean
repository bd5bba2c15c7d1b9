import ProxyConfig.Completion.Group
import ProxyConfig.Completion.Proxy
import ProxyConfig.Completion.Rule
import ProxyConfig.Completion.Setting

/-! # Completion

The offers at a cursor. Nothing is offered behind the end of a line.
-/

namespace ProxyConfig

namespace Cursor

/-- The offers of a section name: the known sections that the document lacks. The edit replaces
everything behind the bracket. -/
def headerItems (c : Cursor) : List CompletionItem :=
  let text := Span.trimmed 1 c.content
  let start := text.column + 1
  let range := Range.between c.line start (max text.endColumn start)
  ((Keyword.all : List SectionKind).filter fun kind => !c.doc.hasSection kind).map fun kind =>
    let name := Keyword.spelling kind
    { label := s!"[{name}]", kind := .header, range := range, newText := s!"{name}]"
      filterText := name, documentation := some (Keyword.description kind) }

/-- The offers at the cursor. -/
def items (c : Cursor) (snippets : Bool) : List CompletionItem :=
  if c.column > c.lineText.length + 1 then []
  else
    match c.context with
    | .header => c.headerItems
    | .body .general => c.settingItems snippets
    | .body .proxy => c.proxyItems snippets
    | .body .proxyGroup => c.groupItems snippets
    | .body .rule => c.ruleItems
    | _ => []

end Cursor

namespace ClientView

/-- The offers at a client's position. -/
def completions (view : ClientView) (p : ClientPosition) (snippets : Bool) : List CompletionItem :=
  (Cursor.mk view.doc (view.position p)).items snippets

/-- The offers in the client's coordinates. -/
def clientCompletions (view : ClientView) (p : ClientPosition) (snippets : Bool) :
    List (CompletionItem ClientRange) :=
  (view.completions p snippets).map fun item => item.inView view

end ClientView

end ProxyConfig

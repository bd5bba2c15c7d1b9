import ProxyConfig.Completion.Cursor
import ProxyConfig.Completion.Item

/-! # Completing declarations

What the declarations of proxies and of groups have in common: a type as the first argument, and
properties with keys that the type accepts.
-/

namespace ProxyConfig

/-- The part of an argument that the cursor is in. -/
inductive PropertySlot where
  /-- The key, and whether an `=` follows it. An argument without `=` may become a key. -/
  | key (word : Span) (hasEquals : Bool)
  /-- The value of a property. -/
  | value (property : Entry)

namespace Cursor

/-- The part of an argument that the cursor is in. -/
def slot (c : Cursor) (argument : Span) : PropertySlot :=
  match argument.property? c.line, Text.cut? '=' argument.text with
  | some property, some (key, _) =>
    if argument.column + key.length < c.column then .value property else .key property.key true
  | _, _ => .key argument false

/-- The offers of a type. While the value holds nothing but the type, whole declarations are
offered as templates. -/
def typeItems {K : Type} [Keyword K] (c : Cursor) (arguments : Pieces) (snippets : Bool)
    (template : K → String) : List CompletionItem :=
  let range := c.wordRange arguments.first
  (Keyword.all : List K).map fun k =>
    if snippets && arguments.others.isEmpty then
      (CompletionItem.ofKeyword k .template range (template k)).asSnippet
    else .ofKeyword k .keyword range (Keyword.spelling k)

end Cursor

/-- The keys of the properties among the arguments, but for the argument with the given number. -/
def Entry.keysBeside (entry : Entry) (index : Nat) : List Text :=
  ((entry.arguments.toList.eraseIdx index).filterMap fun argument =>
    argument.property? entry.line).map fun property => property.key.text

namespace CompletionItem

/-- The offer of a property key; an `=` comes with it if none is there. -/
def ofPropertyKey {K : Type} [Keyword K] (key : K) (detail : String) (range : Range)
    (hasEquals : Bool) : CompletionItem :=
  let name := Keyword.spelling key
  { ofKeyword key .property range (if hasEquals then name else name ++ "=") with
    detail := some detail }

/-- The offer of the keys that a declaration must or may have and that are not used yet. -/
def propertyKeys {K : Type} [Keyword K] (required allowed : List K) (used : List Text)
    (range : Range) (hasEquals : Bool) : List CompletionItem :=
  let unused (keys : List K) := keys.filter fun key => !used.contains (Keyword.text key)
  ((unused required).map fun key => ofPropertyKey key "required" range hasEquals)
    ++ (unused allowed).map fun key => ofPropertyKey key "optional" range hasEquals

end CompletionItem

end ProxyConfig

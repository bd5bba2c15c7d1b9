import ProxyConfig.Completion.Cursor
import ProxyConfig.Completion.Item
import ProxyConfig.Schema.Setting

/-! # Completing general settings

Keys that no other line sets, and the values of the settings that take few values.
-/

namespace ProxyConfig

/-- A key with tab stops over the values it takes. -/
def choiceTemplate (key : String) (choices : List String) : String :=
  key ++ " = $\x7b1|" ++ ",".intercalate choices ++ "|\x7d"

/-- The offer of a key for a line that has no `=` yet. -/
def SettingKey.item (key : SettingKey) (range : Range) (snippets : Bool) : CompletionItem :=
  let name := Keyword.spelling key
  match key.kind, snippets with
  | .tun, _ => .ofKeyword key .property range "tun = auto"
  | .logLevel, true => (CompletionItem.ofKeyword key .property range
      (choiceTemplate name logLevels)).asSnippet
  | .boolean, true => (CompletionItem.ofKeyword key .property range
      (choiceTemplate name ["true", "false"])).asSnippet
  | _, _ => .ofKeyword key .property range (name ++ " = ")

namespace Cursor

/-- The keys that the other lines of the document set. -/
def settingsElsewhere (c : Cursor) : List Text :=
  ((c.doc.entries .general).filter fun entry => entry.line != c.line).map fun entry =>
    entry.key.text

/-- The offers for the key of a setting. -/
def settingKeyItems (c : Cursor) (snippets : Bool) : List CompletionItem :=
  let keys := (Keyword.all : List SettingKey).filter fun key =>
    !c.settingsElsewhere.contains (Keyword.text key)
  match Text.cut? '=' c.content with
  | some (key, _) =>
    let range := c.wordRange (.trimmed 1 key)
    keys.map fun k => .ofKeyword k .property range (Keyword.spelling k)
  | none =>
    let range := c.wordRange (.trimmed 1 c.content)
    keys.map fun k => k.item range snippets

/-- The offers for the value of a setting. Only a first value is completed. -/
def settingValueItems (c : Cursor) : List CompletionItem :=
  match c.entry? with
  | none => []
  | some entry =>
    if c.pieceIndex entry.value.text entry.value.column ≠ 0 then []
    else
      let range := c.wordRange entry.arguments.first
      match (Keyword.parse? entry.key.text).map SettingKey.kind with
      | some .tun => CompletionItem.values ["auto"] range
      | some .logLevel => CompletionItem.values logLevels range
      | some .boolean => CompletionItem.booleans range
      | _ => []

/-- The offers in a `General` section. -/
def settingItems (c : Cursor) (snippets : Bool) : List CompletionItem :=
  match c.equalsColumn? with
  | none => c.settingKeyItems snippets
  | some equals => if equals < c.column then c.settingValueItems else c.settingKeyItems snippets

end Cursor

end ProxyConfig

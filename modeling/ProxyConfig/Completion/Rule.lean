import ProxyConfig.Completion.Cursor
import ProxyConfig.Completion.Item

/-! # Completing rules

Rule types, actors as targets, and the matchers that are words.
-/

namespace ProxyConfig

namespace Cursor

/-- The offers for the matcher of a rule. -/
def matcherItems (c : Cursor) (rule : RuleType) (matcher : Span) : List CompletionItem :=
  let range := c.wordRange matcher
  match rule with
  | .network => CompletionItem.values networks range
  | .external =>
    if matcher.text.contains ':' then []
    else
      (Keyword.all : List ExternalSource).map fun source =>
        .ofKeyword source .value range (Keyword.spelling source ++ ":")
  | _ => []

/-- The offers in a `Rule` section. -/
def ruleItems (c : Cursor) : List CompletionItem :=
  let pieces := Pieces.read 1 c.content
  let index := c.pieceIndex c.content 1
  match pieces.piece? index with
  | none => []
  | some piece =>
    let range := c.wordRange piece
    if index = 0 then
      (Keyword.all : List RuleType).map fun rule =>
        .ofKeyword rule .keyword range (Keyword.spelling rule)
    else
      match (Keyword.parse? pieces.first.text : Option RuleType) with
      | none => []
      | some rule =>
        if index = rule.targetIndex then CompletionItem.actors c.doc range none
        else if index = 1 then c.matcherItems rule piece
        else []

end Cursor

end ProxyConfig

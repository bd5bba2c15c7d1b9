import ProxyConfig.Actor.Site
import ProxyConfig.Actor.Summary
import ProxyConfig.Client.Encoding
import ProxyConfig.Schema.Setting

/-! # Hover

What is shown about the word under the cursor: the description of a keyword, or the summary of the
actor that a name stands for. A cursor right behind a word still shows it; one behind the end of the
line, comments left out, shows nothing.
-/

namespace ProxyConfig

/-- What is shown about a word, and where the word is. -/
structure Hover (R : Type := Range) where
  content : Summary
  range : R
deriving DecidableEq

/-- The same content at another range. -/
def Hover.map {R S : Type} (f : R → S) (hover : Hover R) : Hover S := ⟨hover.content, f hover.range⟩

/-- The summary as Markdown: the title as code, the description below. -/
def Summary.markdown (s : Summary) : String :=
  let title := s!"```leafconf\n{s.title}\n```"
  match s.description with
  | none => title
  | some description => s!"{title}\n\n{description}"

/-- The summary of a keyword of the labelled family. -/
def Keyword.summary {K : Type} [Keyword K] (label : String) (k : K) : Summary where
  title := s!"({label}) {spelling k}"
  description := some (description k)

/-- The first argument with a text that the cursor touches, and its number. -/
def Pieces.touched? (p : Pieces) (column : Nat) : Option (Span × Nat) :=
  p.toList.zipIdx.find? fun (argument, _) => !argument.isEmpty && argument.touches column

/-- The hover on a span that spells a keyword. -/
def Span.keywordHover? (K : Type) [Keyword K] (span : Span) (label : String) (line : Nat) :
    Option Hover :=
  (Keyword.parse? span.text : Option K).map fun k => ⟨Keyword.summary label k, span.range line⟩

namespace Entry

/-- The hover on the name that an entry declares. -/
def nameHover? (entry : Entry) (kind : ActorKind) (p : Position) : Option Hover :=
  if !entry.key.isEmpty && entry.keyRange.touches p then
    some ⟨(Declaration.mk kind entry).summary, entry.keyRange⟩
  else none

/-- The hover on the key of a general setting. -/
def settingHover? (entry : Entry) (p : Position) : Option Hover :=
  if entry.keyRange.touches p then entry.key.keywordHover? SettingKey "setting" entry.line else none

/-- The hover on a plain argument of a proxy: the first two behind the protocol are its host and its
port, if it has any. -/
def endpointHover? (entry : Entry) (protocol : Protocol) (argument : Span) (index : Nat) :
    Option Hover :=
  let labelled (label : String) : Option Hover :=
    some ⟨⟨s!"({label}) {String.ofList argument.text}", none⟩, argument.range entry.line⟩
  match protocol.requiresHost, index with
  | true, 1 => labelled "host"
  | true, 2 => labelled "port"
  | _, _ => none

/-- The hover on an argument of a proxy. -/
def proxyArgumentHover? (entry : Entry) (column : Nat) : Option Hover := do
  let (argument, index) ← entry.arguments.touched? column
  if index = 0 then argument.keywordHover? Protocol "protocol" entry.line
  else
    let protocol ← Keyword.parse? entry.arguments.first.text
    match argument.property? entry.line with
    | none => entry.endpointHover? protocol argument index
    | some property =>
      if property.key.touches column then
        property.key.keywordHover? ProxyProperty "property" entry.line
      else none

end Entry

namespace Document

/-- The hover on a name: the summary of the actor that it stands for. -/
def referenceHover? (doc : Document) (name : Span) (line : Nat) : Option Hover :=
  (doc.declaration? name.text).map fun d => ⟨d.summary, name.range line⟩

/-- The hover on an argument of a group: the type, an actor, or a part of a property. -/
def groupArgumentHover? (doc : Document) (entry : Entry) (column : Nat) : Option Hover := do
  let (argument, index) ← entry.arguments.touched? column
  if index = 0 then argument.keywordHover? GroupType "group type" entry.line
  else
    match argument.property? entry.line with
    | none => doc.referenceHover? argument entry.line
    | some property =>
      if property.key.touches column then
        property.key.keywordHover? GroupProperty "property" entry.line
      else
        let value ← property.lastResort?
        if value.touches column then doc.referenceHover? value entry.line else none

/-- The hover on a piece of a rule: the type or the target. -/
def ruleHover? (doc : Document) (line : NumberedLine) (column : Nat) : Option Hover := do
  let (piece, index) ← line.pieces.touched? column
  if index = 0 then piece.keywordHover? RuleType "rule type" line.number
  else
    let rule : RuleType ← Keyword.parse? line.pieces.first.text
    if index = rule.targetIndex then doc.referenceHover? piece line.number else none

/-- What is shown about the word at a position. -/
def hoverAt? (doc : Document) (p : Position) : Option Hover :=
  let line := doc.line p.line
  if p.column > line.uncommented.length + 1 then none
  else
    match doc.kindAt? p.line with
    | some .general => (Entry.ofLine? p.line line).bind fun entry => entry.settingHover? p
    | some .proxy =>
      (Entry.ofLine? p.line line).bind fun entry =>
        (entry.nameHover? .proxy p).or (entry.proxyArgumentHover? p.column)
    | some .proxyGroup =>
      (Entry.ofLine? p.line line).bind fun entry =>
        (entry.nameHover? .group p).or (doc.groupArgumentHover? entry p.column)
    | some .rule => doc.ruleHover? ⟨p.line, line⟩ p.column
    | _ => none

end Document

/-- The hover in a client's coordinates. -/
def Hover.toJson (hover : Hover ClientRange) : Json :=
  .object
    [("contents", .object
        [("kind", .string "markdown"), ("value", .string hover.content.markdown)]),
      ("range", hover.range.toJson)]

namespace ClientView

/-- What a client is shown about the word at its position. -/
def hover? (view : ClientView) (p : ClientPosition) : Option (Hover ClientRange) :=
  (view.doc.hoverAt? (view.position p)).map fun hover => hover.map view.clientRange

def hoverJson? (view : ClientView) (p : ClientPosition) : Option Json :=
  (view.hover? p).map Hover.toJson

end ClientView

end ProxyConfig

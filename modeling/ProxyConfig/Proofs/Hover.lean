import ProxyConfig.Hover
import ProxyConfig.Proofs.Actor.Cursor
import ProxyConfig.Proofs.Client.Ranges
import ProxyConfig.Proofs.Keyword

/-! # What a hover shows

A line has spans that a hover can show: the key of a setting, a declared name, a keyword, the host
and the port of a proxy, and names that refer to actors. `Document.Explains` lists them with what is
shown about each. No cursor touches two of them, so a hover is the one that the cursor touches, and
its range covers the token that its content is about.
-/

namespace ProxyConfig

open Text

section Lookups

variable {line column i : Nat} {a : Span} {hover : Hover}

/-- A cursor touches one piece of a text at most. -/
theorem Pieces.touched?_read_eq_some_iff {start : Nat} {s : Text} :
    (read start s).touched? column = some (a, i) ↔
      (read start s).piece? i = some a ∧ a.text ≠ [] ∧ a.touches column = true := by
  have sound {b : Span} {j : Nat} (found : (read start s).touched? column = some (b, j)) :
      (read start s).piece? j = some b ∧ b.text ≠ [] ∧ b.touches column = true := by
    have test := List.find?_some found
    rw [Bool.and_eq_true, Bool.not_eq_true', Span.isEmpty_eq_false_iff] at test
    exact ⟨List.mk_mem_zipIdx_iff_getElem?.mp (List.mem_of_find?_eq_some found), test⟩
  refine ⟨sound, fun ⟨piece, solid, touches⟩ => ?_⟩
  have some? : ((read start s).touched? column).isSome = true := by
    refine List.find?_isSome.mpr ⟨(a, i), List.mk_mem_zipIdx_iff_getElem?.mpr piece, ?_⟩
    rw [Bool.and_eq_true, Bool.not_eq_true', Span.isEmpty_eq_false_iff]
    exact ⟨solid, touches⟩
  obtain ⟨⟨b, j⟩, found⟩ := Option.isSome_iff_exists.mp some?
  obtain ⟨other, -, here⟩ := sound found
  -- both are the piece that the commas in front of the cursor count
  obtain rfl : i = j := (pieceIndexAt_of_touches piece touches).symm.trans
    (pieceIndexAt_of_touches other here)
  rw [found, Option.some.inj (piece.symm.trans other)]

theorem Span.keywordHover?_eq_some_iff {K : Type} [Keyword K] [Keyword.Readable K]
    {label : String} :
    a.keywordHover? K label line = some hover ↔
      ∃ k : K, a.text = Keyword.text k ∧ hover = ⟨Keyword.summary label k, a.range line⟩ := by
  rw [keywordHover?, Option.map_eq_some_iff]
  exact exists_congr fun k => and_congr (Keyword.parse?_eq_some_iff.trans eq_comm) eq_comm

theorem Document.referenceHover?_eq_some_iff {doc : Document} :
    doc.referenceHover? a line = some hover ↔
      ∃ d, doc.declaration? a.text = some d ∧ hover = ⟨d.summary, a.range line⟩ := by
  rw [referenceHover?, Option.map_eq_some_iff]
  exact exists_congr fun d => and_congr_right fun _ => eq_comm

end Lookups

/-! ## Titles -/

/-- The title starts with the label in parentheses. -/
def Summary.Labelled (s : Summary) (label : String) : Prop :=
  ∃ rest : Text, s.title.toList = '(' :: (label.toList ++ ')' :: rest)

section Titles

variable {label other : String}

/-- A label without a parenthesis in it can be read off the title. -/
theorem Summary.Labelled.unique {s : Summary} (here : s.Labelled label) (there : s.Labelled other)
    (closed : ')' ∉ label.toList) (closed' : ')' ∉ other.toList) : label = other := by
  obtain ⟨rest, title⟩ := here
  obtain ⟨rest', title'⟩ := there
  have same := List.tail_eq_of_cons_eq (title.symm.trans title')
  have read := cut?_append_cons closed rest
  rw [same, cut?_append_cons closed' rest', Option.some.injEq, Prod.mk.injEq] at read
  exact String.toList_injective read.1.symm

theorem Summary.labelled_mk (label rest : String) (description : Option String) :
    (Summary.mk s!"({label}) {rest}" description).Labelled label := by
  refine ⟨' ' :: rest.toList, ?_⟩
  change ("(" ++ label ++ ") " ++ rest).toList = _
  simp only [String.toList_append, List.append_assoc]
  rfl

theorem Keyword.labelled_summary {K : Type} [Keyword K] (label : String) (k : K) :
    (Keyword.summary label k).Labelled label :=
  Summary.labelled_mk label (spelling k) _

theorem Declaration.labelled_summary (d : Declaration) : d.summary.Labelled d.label := by
  let name := String.ofList d.name
  let type := String.ofList d.entry.arguments.first.text
  refine ⟨' ' :: (name ++ " = " ++ type).toList, ?_⟩
  change ("(" ++ d.label ++ ") " ++ name ++ " = " ++ type).toList = _
  simp only [String.toList_append, List.append_assoc]
  rfl

theorem Declaration.label_cases (d : Declaration) : d.label = "proxy" ∨ d.label = "proxy group" := by
  rw [label]
  cases d.kind with
  | proxy => exact .inl rfl
  | group => exact .inr rfl

/-- The label in the title of the summary of an actor is `proxy` or `proxy group`. -/
theorem Declaration.eq_of_labelled_summary {d : Declaration} (titled : d.summary.Labelled label)
    (closed : ')' ∉ label.toList) : label = "proxy" ∨ label = "proxy group" := by
  have closed' : ')' ∉ d.label.toList := by
    rcases d.label_cases with kind | kind <;> rw [kind] <;> decide
  rw [titled.unique d.labelled_summary closed closed']
  exact d.label_cases

end Titles

/-! ## What is shown about a line -/

namespace Entry

/-- What is shown about a span of the value of a proxy. -/
inductive ExplainsProxy (e : Entry) : Span → Summary → Prop
  | protocol {k : Protocol} (spelled : e.arguments.first.text = Keyword.text k) :
      e.ExplainsProxy e.arguments.first (Keyword.summary "protocol" k)
  | endpoint {k : Protocol} {i : Nat} {label : String} {a : Span}
      (spelled : e.arguments.first.text = Keyword.text k) (hosted : k.requiresHost = true)
      (counted : (i, label) ∈ [(1, "host"), (2, "port")]) (piece : e.arguments.piece? i = some a)
      (solid : a.text ≠ []) (plain : a.property? e.line = none) :
      e.ExplainsProxy a ⟨s!"({label}) {String.ofList a.text}", none⟩
  | property {k : Protocol} {key : ProxyProperty} {a : Span} {q : Entry}
      (spelled : e.arguments.first.text = Keyword.text k) (inside : a ∈ e.arguments.others)
      (read : a.property? e.line = some q) (named : q.key.text = Keyword.text key) :
      e.ExplainsProxy q.key (Keyword.summary "property" key)

end Entry

namespace Document

/-- What is shown about a span of the value of a group. -/
inductive ExplainsGroup (doc : Document) (e : Entry) : Span → Summary → Prop
  | type {k : GroupType} (spelled : e.arguments.first.text = Keyword.text k) :
      doc.ExplainsGroup e e.arguments.first (Keyword.summary "group type" k)
  | property {key : GroupProperty} {a : Span} {q : Entry} (inside : a ∈ e.arguments.others)
      (read : a.property? e.line = some q) (named : q.key.text = Keyword.text key) :
      doc.ExplainsGroup e q.key (Keyword.summary "property" key)
  | reference {argument a : Span} {role : NameRole} {d : Declaration}
      (inside : argument ∈ e.arguments.others) (solid : argument.text ≠ [])
      (refers : e.Refers argument a role) (declared : doc.declaration? a.text = some d) :
      doc.ExplainsGroup e a d.summary

/-- What is shown about a piece of a rule. -/
inductive ExplainsRule (doc : Document) (l : NumberedLine) : Span → Summary → Prop
  | type {k : RuleType} (spelled : l.pieces.first.text = Keyword.text k) :
      doc.ExplainsRule l l.pieces.first (Keyword.summary "rule type" k)
  | target {k : RuleType} {a : Span} {d : Declaration}
      (spelled : l.pieces.first.text = Keyword.text k)
      (piece : l.pieces.piece? k.targetIndex = some a) (solid : a.text ≠ [])
      (declared : doc.declaration? a.text = some d) : doc.ExplainsRule l a d.summary

/-- What is shown about a span of a line. -/
inductive Explains (doc : Document) (n : Nat) : Span → Summary → Prop
  | setting {e : Entry} {k : SettingKey} (known : doc.kindAt? n = some .general)
      (read : Entry.ofLine? n (doc.line n) = some e) (spelled : e.key.text = Keyword.text k) :
      doc.Explains n e.key (Keyword.summary "setting" k)
  | name {e : Entry} {kind : ActorKind} (known : doc.kindAt? n = some kind.sectionKind)
      (read : Entry.ofLine? n (doc.line n) = some e) (solid : e.key.text ≠ []) :
      doc.Explains n e.key (Declaration.mk kind e).summary
  | proxy {e : Entry} {a : Span} {content : Summary} (known : doc.kindAt? n = some .proxy)
      (read : Entry.ofLine? n (doc.line n) = some e) (explains : e.ExplainsProxy a content) :
      doc.Explains n a content
  | group {e : Entry} {a : Span} {content : Summary} (known : doc.kindAt? n = some .proxyGroup)
      (read : Entry.ofLine? n (doc.line n) = some e) (explains : doc.ExplainsGroup e a content) :
      doc.Explains n a content
  | rule {a : Span} {content : Summary} (known : doc.kindAt? n = some .rule)
      (explains : doc.ExplainsRule ⟨n, doc.line n⟩ a content) : doc.Explains n a content

end Document

/-! ## Where the spans stand -/

namespace Entry

variable {e : Entry} {a : Span} {content : Summary}

theorem standsIn_of_mem_others {argument : Span} (inside : argument ∈ e.arguments.others) :
    argument.StandsIn e.value.column e.value.text :=
  standsIn_of_mem_arguments (List.mem_cons_of_mem _ inside)

theorem ExplainsProxy.standsIn (explains : e.ExplainsProxy a content) :
    a.StandsIn e.value.column e.value.text := by
  cases explains with
  | protocol => exact standsIn_of_mem_arguments (List.mem_cons_self ..)
  | endpoint _ _ _ piece => exact standsIn_of_mem_arguments (List.mem_of_getElem? piece)
  | property _ inside read =>
    exact (Span.standsIn_of_property? read).1.trans (standsIn_of_mem_others inside)

end Entry

namespace Document

variable {doc : Document} {n : Nat} {e : Entry} {l : NumberedLine} {a : Span} {content : Summary}

theorem ExplainsGroup.standsIn (explains : doc.ExplainsGroup e a content) :
    a.StandsIn e.value.column e.value.text := by
  cases explains with
  | type => exact Entry.standsIn_of_mem_arguments (List.mem_cons_self ..)
  | property inside read =>
    exact (Span.standsIn_of_property? read).1.trans (Entry.standsIn_of_mem_others inside)
  | reference inside _ refers =>
    exact refers.standsIn.trans (Entry.standsIn_of_mem_others inside)

theorem ExplainsRule.standsIn (explains : doc.ExplainsRule l a content) :
    a.StandsIn 1 l.text.uncommented := by
  cases explains with
  | type => exact Pieces.standsIn_of_mem_read (List.mem_cons_self ..)
  | target _ piece => exact Pieces.standsIn_of_mem_read (List.mem_of_getElem? piece)

/-- Whatever is shown stands in the line, in front of its comment. -/
theorem Explains.standsIn (explains : doc.Explains n a content) :
    a.StandsIn 1 (doc.line n).uncommented := by
  have parts {e : Entry} (read : Entry.ofLine? n (doc.line n) = some e) :
      e.key.StandsIn 1 (doc.line n).uncommented ∧ e.value.StandsIn 1 (doc.line n).uncommented := by
    rw [Entry.ofLine?, ← Entry.parse?_uncommented] at read
    exact Entry.standsIn_of_parse? read
  cases explains with
  | setting _ read => exact (parts read).1
  | name _ read => exact (parts read).1
  | proxy _ read explains => exact explains.standsIn.trans (parts read).2
  | group _ read explains => exact explains.standsIn.trans (parts read).2
  | rule _ explains => exact explains.standsIn

end Document

/-! ## The lookups find what is shown -/

namespace Entry

variable {e : Entry} {hover : Hover} {column : Nat}

/-- A cursor that touches a part of an argument behind the type is in that argument. -/
theorem exists_touched? {argument a : Span} (inside : argument ∈ e.arguments.others)
    (stands : a.StandsIn argument.column argument.text) (solid : argument.text ≠ [])
    (touches : a.touches column = true) :
    ∃ i, e.arguments.touched? column = some (argument, i + 1) := by
  obtain ⟨i, piece⟩ := List.mem_iff_getElem?.mp inside
  have place : e.arguments.piece? (i + 1) = some argument := piece
  exact ⟨i, Pieces.touched?_read_eq_some_iff.mpr ⟨place, solid, stands.touches touches⟩⟩

theorem first_touched? (solid : e.arguments.first.text ≠ [])
    (touches : e.arguments.first.touches column = true) :
    e.arguments.touched? column = some (e.arguments.first, 0) :=
  Pieces.touched?_read_eq_some_iff.mpr ⟨rfl, solid, touches⟩

theorem mem_others_of_piece? {a : Span} {i : Nat} (behind : i ≠ 0)
    (piece : e.arguments.piece? i = some a) : a ∈ e.arguments.others := by
  obtain ⟨j, rfl⟩ := Nat.exists_eq_succ_of_ne_zero behind
  exact List.mem_of_getElem? (i := j) piece

theorem solid_of_property? {a : Span} {line : Nat} {q : Entry} (read : a.property? line = some q) :
    a.text ≠ [] := by
  intro void
  rw [Span.property?, void] at read
  cases read

section Keys

variable {p : Position} (line : e.line = p.line)

include line

theorem touches_keyRange_iff : e.keyRange.touches p = true ↔ e.key.touches p.column = true := by
  rw [Range.touches_iff, Position.upTo_iff, Position.upTo_iff, Span.touches_iff]
  change (e.line < p.line ∨ e.line = p.line ∧ e.key.column ≤ p.column) ∧
    (p.line < e.line ∨ p.line = e.line ∧ p.column ≤ e.key.endColumn) ↔ _
  omega

theorem settingHover?_eq_some_iff : e.settingHover? p = some hover ↔
    ∃ k : SettingKey, e.key.text = Keyword.text k ∧ e.key.touches p.column = true ∧
      hover = ⟨Keyword.summary "setting" k, e.key.range p.line⟩ := by
  rw [settingHover?, Option.ite_none_right_eq_some, touches_keyRange_iff line,
    Span.keywordHover?_eq_some_iff, line]
  constructor
  · rintro ⟨touches, k, spelled, rfl⟩
    exact ⟨k, spelled, touches, rfl⟩
  · rintro ⟨k, spelled, touches, rfl⟩
    exact ⟨touches, k, spelled, rfl⟩

theorem nameHover?_eq_some_iff {kind : ActorKind} : e.nameHover? kind p = some hover ↔
    e.key.text ≠ [] ∧ e.key.touches p.column = true ∧
      hover = ⟨(Declaration.mk kind e).summary, e.key.range p.line⟩ := by
  rw [nameHover?, Option.ite_none_right_eq_some, Bool.and_eq_true, Bool.not_eq_true',
    Span.isEmpty_eq_false_iff, touches_keyRange_iff line, keyRange, line, Option.some.injEq,
    and_assoc, eq_comm (a := hover)]

end Keys

theorem endpointHover?_eq_some_iff {k : Protocol} {a : Span} {i : Nat} :
    e.endpointHover? k a i = some hover ↔ k.requiresHost = true ∧
      ∃ label, (i, label) ∈ [(1, "host"), (2, "port")] ∧
        hover = ⟨⟨s!"({label}) {String.ofList a.text}", none⟩, a.range e.line⟩ := by
  unfold endpointHover?
  constructor
  · intro found
    split at found
    · next hosted => exact ⟨hosted, "host", by simp, (Option.some.inj found).symm⟩
    · next hosted => exact ⟨hosted, "port", by simp, (Option.some.inj found).symm⟩
    · cases found
  · rintro ⟨hosted, label, counted, rfl⟩
    rw [hosted]
    rcases List.mem_pair.mp counted with same | same <;> cases same <;> rfl

/-- The hover in the value of a proxy is what is shown about a span that the cursor touches. -/
theorem proxyArgumentHover?_eq_some_iff : e.proxyArgumentHover? column = some hover ↔
    ∃ a, e.ExplainsProxy a hover.content ∧ a.touches column = true ∧
      hover.range = a.range e.line := by
  constructor
  · intro found
    obtain ⟨⟨argument, i⟩, touched, found⟩ := Option.bind_eq_some_iff.mp found
    obtain ⟨piece, solid, touches⟩ := Pieces.touched?_read_eq_some_iff.mp touched
    dsimp only at found
    split at found
    · next first =>
      subst first
      obtain rfl : e.arguments.first = argument := Option.some.inj piece
      obtain ⟨k, spelled, rfl⟩ := Span.keywordHover?_eq_some_iff.mp found
      exact ⟨_, .protocol spelled, touches, rfl⟩
    · next behind =>
      obtain ⟨k, known, found⟩ := Option.bind_eq_some_iff.mp found
      have spelled := (Keyword.text_of_parse? known).symm
      split at found
      · next plain =>
        obtain ⟨hosted, label, counted, rfl⟩ := endpointHover?_eq_some_iff.mp found
        exact ⟨argument, .endpoint spelled hosted counted piece solid plain, touches, rfl⟩
      · next q read =>
        split at found
        · next onKey =>
          obtain ⟨key, named, rfl⟩ := Span.keywordHover?_eq_some_iff.mp found
          have line : q.line = e.line := line_of_parse? read
          exact ⟨q.key, .property spelled (mem_others_of_piece? behind piece) read named, onKey, rfl⟩
        · cases found
  · obtain ⟨content, range⟩ := hover
    rintro ⟨a, explains, touches, rfl⟩
    cases explains with
    | @protocol k spelled =>
      have solid : e.arguments.first.text ≠ [] := by rw [spelled]; cases k <;> decide
      rw [proxyArgumentHover?, first_touched? solid touches]
      exact Span.keywordHover?_eq_some_iff.mpr ⟨k, spelled, rfl⟩
    | @endpoint k i label a spelled hosted counted piece solid plain =>
      have behind : i ≠ 0 := by
        rcases List.mem_pair.mp counted with same | same <;> cases same <;> decide
      have touched : e.arguments.touched? column = some (a, i) :=
        Pieces.touched?_read_eq_some_iff.mpr ⟨piece, solid, touches⟩
      have known : (Keyword.parse? e.arguments.first.text : Option Protocol) = some k :=
        Keyword.parse?_eq_some_iff.mpr spelled.symm
      simp only [proxyArgumentHover?, touched, Option.bind_eq_bind, Option.bind_some, if_neg behind,
        known, plain]
      exact endpointHover?_eq_some_iff.mpr ⟨hosted, label, counted, rfl⟩
    | @property k key argument q spelled inside read named =>
      obtain ⟨i, touched⟩ := exists_touched? inside (Span.standsIn_of_property? read).1
        (solid_of_property? read) touches
      have known : (Keyword.parse? e.arguments.first.text : Option Protocol) = some k :=
        Keyword.parse?_eq_some_iff.mpr spelled.symm
      simp only [proxyArgumentHover?, touched, Option.bind_eq_bind, Option.bind_some,
        if_neg (Nat.succ_ne_zero i), known, read, touches, if_true]
      exact Span.keywordHover?_eq_some_iff.mpr ⟨key, named, rfl⟩

end Entry

namespace Document

variable {doc : Document} {e : Entry} {l : NumberedLine} {hover : Hover} {column : Nat}

/-- The hover in the value of a group is what is shown about a span that the cursor touches. -/
theorem groupArgumentHover?_eq_some_iff : doc.groupArgumentHover? e column = some hover ↔
    ∃ a, doc.ExplainsGroup e a hover.content ∧ a.touches column = true ∧
      hover.range = a.range e.line := by
  constructor
  · intro found
    obtain ⟨⟨argument, i⟩, touched, found⟩ := Option.bind_eq_some_iff.mp found
    obtain ⟨piece, solid, touches⟩ := Pieces.touched?_read_eq_some_iff.mp touched
    dsimp only at found
    split at found
    · next first =>
      subst first
      obtain rfl : e.arguments.first = argument := Option.some.inj piece
      obtain ⟨k, spelled, rfl⟩ := Span.keywordHover?_eq_some_iff.mp found
      exact ⟨_, .type spelled, touches, rfl⟩
    next behind =>
    have inside := Entry.mem_others_of_piece? behind piece
    split at found
    · next plain =>
      obtain ⟨d, declared, rfl⟩ := referenceHover?_eq_some_iff.mp found
      exact ⟨argument, .reference inside solid (.member plain) declared, touches, rfl⟩
    · next q read =>
      split at found
      · next onKey =>
        obtain ⟨key, named, rfl⟩ := Span.keywordHover?_eq_some_iff.mp found
        exact ⟨q.key, .property inside read named, onKey, rfl⟩
      · obtain ⟨value, resort, found⟩ := Option.bind_eq_some_iff.mp found
        obtain ⟨onValue, shown⟩ := Option.ite_none_right_eq_some.mp found
        obtain ⟨d, declared, rfl⟩ := referenceHover?_eq_some_iff.mp shown
        exact ⟨value, .reference inside solid (.lastResort read resort) declared, onValue, rfl⟩
  · obtain ⟨content, range⟩ := hover
    rintro ⟨a, explains, touches, rfl⟩
    cases explains with
    | @type k spelled =>
      have solid : e.arguments.first.text ≠ [] := by rw [spelled]; cases k <;> decide
      rw [groupArgumentHover?, Entry.first_touched? solid touches]
      exact Span.keywordHover?_eq_some_iff.mpr ⟨k, spelled, rfl⟩
    | @property key argument q inside read named =>
      obtain ⟨i, touched⟩ := Entry.exists_touched? inside (Span.standsIn_of_property? read).1
        (Entry.solid_of_property? read) touches
      simp only [groupArgumentHover?, touched, Option.bind_eq_bind, Option.bind_some,
        if_neg (Nat.succ_ne_zero i), read, touches, if_true]
      exact Span.keywordHover?_eq_some_iff.mpr ⟨key, named, rfl⟩
    | @reference argument _ role d inside solid refers declared =>
      obtain ⟨i, touched⟩ := Entry.exists_touched? inside refers.standsIn solid touches
      simp only [groupArgumentHover?, touched, Option.bind_eq_bind, Option.bind_some,
        if_neg (Nat.succ_ne_zero i)]
      cases refers with
      | member plain =>
        simp only [plain]
        exact referenceHover?_eq_some_iff.mpr ⟨d, declared, rfl⟩
      | @lastResort q _ read resort =>
        -- the `=` of the property stands between its key and its value
        have offKey : ¬ q.key.touches column = true := by
          have apart := (Entry.key_before_value_of_parse? read).2
          rw [Entry.eq_value_of_lastResort? resort, Span.touches_iff] at touches
          rw [Span.touches_iff]
          omega
        simp only [read, if_neg offKey, resort, Option.bind_some, touches, if_true]
        exact referenceHover?_eq_some_iff.mpr ⟨d, declared, rfl⟩

/-- The hover on a rule is what is shown about a piece that the cursor touches. -/
theorem ruleHover?_eq_some_iff : doc.ruleHover? l column = some hover ↔
    ∃ a, doc.ExplainsRule l a hover.content ∧ a.touches column = true ∧
      hover.range = a.range l.number := by
  constructor
  · intro found
    obtain ⟨⟨a, i⟩, touched, found⟩ := Option.bind_eq_some_iff.mp found
    obtain ⟨piece, solid, touches⟩ := Pieces.touched?_read_eq_some_iff.mp touched
    dsimp only at found
    split at found
    · next first =>
      subst first
      obtain rfl : l.pieces.first = a := Option.some.inj piece
      obtain ⟨k, spelled, rfl⟩ := Span.keywordHover?_eq_some_iff.mp found
      exact ⟨_, .type spelled, touches, rfl⟩
    · obtain ⟨k, known, found⟩ := Option.bind_eq_some_iff.mp found
      obtain ⟨rfl, shown⟩ := Option.ite_none_right_eq_some.mp found
      obtain ⟨d, declared, rfl⟩ := referenceHover?_eq_some_iff.mp shown
      exact ⟨a, .target (Keyword.text_of_parse? known).symm piece solid declared, touches, rfl⟩
  · obtain ⟨content, range⟩ := hover
    rintro ⟨a, explains, touches, rfl⟩
    cases explains with
    | @type k spelled =>
      have solid : l.pieces.first.text ≠ [] := by rw [spelled]; cases k <;> decide
      have touched : l.pieces.touched? column = some (l.pieces.first, 0) :=
        Pieces.touched?_read_eq_some_iff.mpr ⟨rfl, solid, touches⟩
      rw [ruleHover?, touched]
      exact Span.keywordHover?_eq_some_iff.mpr ⟨k, spelled, rfl⟩
    | @target k _ d spelled piece solid declared =>
      have behind : k.targetIndex ≠ 0 := by cases k <;> decide
      have touched : l.pieces.touched? column = some (a, k.targetIndex) :=
        Pieces.touched?_read_eq_some_iff.mpr ⟨piece, solid, touches⟩
      have known : (Keyword.parse? l.pieces.first.text : Option RuleType) = some k :=
        Keyword.parse?_eq_some_iff.mpr spelled.symm
      simp only [ruleHover?, touched, Option.bind_eq_bind, Option.bind_some, if_neg behind, known,
        if_true]
      exact referenceHover?_eq_some_iff.mpr ⟨d, declared, rfl⟩

/-- A hover is what is shown about a span that the cursor touches. -/
theorem hoverAt?_eq_some_iff {p : Position} : doc.hoverAt? p = some hover ↔
    ∃ a, doc.Explains p.line a hover.content ∧ a.touches p.column = true ∧
      hover.range = a.range p.line := by
  constructor
  · intro found
    rw [hoverAt?] at found
    split at found
    · cases found
    split at found
    · next known =>
      obtain ⟨e, read, found⟩ := Option.bind_eq_some_iff.mp found
      have line := Entry.line_of_parse? read
      obtain ⟨k, spelled, touches, rfl⟩ := (Entry.settingHover?_eq_some_iff line).mp found
      exact ⟨e.key, .setting known read spelled, touches, rfl⟩
    · next known =>
      obtain ⟨e, read, found⟩ := Option.bind_eq_some_iff.mp found
      have line := Entry.line_of_parse? read
      rcases Option.or_eq_some_iff.mp found with found | ⟨-, found⟩
      · obtain ⟨solid, touches, rfl⟩ := (Entry.nameHover?_eq_some_iff line).mp found
        exact ⟨e.key, .name known read solid, touches, rfl⟩
      · obtain ⟨a, explains, touches, range⟩ := Entry.proxyArgumentHover?_eq_some_iff.mp found
        exact ⟨a, .proxy known read explains, touches, line ▸ range⟩
    · next known =>
      obtain ⟨e, read, found⟩ := Option.bind_eq_some_iff.mp found
      have line := Entry.line_of_parse? read
      rcases Option.or_eq_some_iff.mp found with found | ⟨-, found⟩
      · obtain ⟨solid, touches, rfl⟩ := (Entry.nameHover?_eq_some_iff line).mp found
        exact ⟨e.key, .name known read solid, touches, rfl⟩
      · obtain ⟨a, explains, touches, range⟩ := groupArgumentHover?_eq_some_iff.mp found
        exact ⟨a, .group known read explains, touches, line ▸ range⟩
    · next known =>
      obtain ⟨a, explains, touches, range⟩ := ruleHover?_eq_some_iff.mp found
      exact ⟨a, .rule known explains, touches, range⟩
    · cases found
  · obtain ⟨content, range⟩ := hover
    rintro ⟨a, explains, touches, rfl⟩
    have short : ¬ p.column > (doc.line p.line).uncommented.length + 1 := by
      have ends := explains.standsIn.endColumn_le
      have upTo := (Span.touches_iff.mp touches).2
      omega
    -- a cursor that touches a part of the value is behind the name
    have unnamed {e : Entry} {kind : ActorKind}
        (read : Entry.ofLine? p.line (doc.line p.line) = some e)
        (stands : a.StandsIn e.value.column e.value.text) : e.nameHover? kind p = none := by
      have apart := (Entry.key_before_value_of_parse? read).2
      have starts := stands.le_column
      have reached := (Span.touches_iff.mp touches).1
      refine Option.eq_none_iff_forall_ne_some.mpr fun hover found => ?_
      obtain ⟨-, onKey, -⟩ := (Entry.nameHover?_eq_some_iff (Entry.line_of_parse? read)).mp found
      have upTo := (Span.touches_iff.mp onKey).2
      omega
    rw [hoverAt?, if_neg short]
    cases explains with
    | @setting e k known read spelled =>
      simp only [known, read, Option.bind_some]
      exact (Entry.settingHover?_eq_some_iff (Entry.line_of_parse? read)).mpr
        ⟨k, spelled, touches, rfl⟩
    | @name e kind known read solid =>
      have named :
          e.nameHover? kind p = some ⟨(Declaration.mk kind e).summary, e.key.range p.line⟩ :=
        (Entry.nameHover?_eq_some_iff (Entry.line_of_parse? read)).mpr ⟨solid, touches, rfl⟩
      cases kind <;>
        simp only [known, ActorKind.sectionKind, read, Option.bind_some, named, Option.some_or] <;>
        rfl
    | @proxy e _ _ known read explains =>
      simp only [known, read, Option.bind_some, unnamed read explains.standsIn, Option.none_or]
      exact Entry.proxyArgumentHover?_eq_some_iff.mpr
        ⟨a, explains, touches, by rw [Entry.line_of_parse? read]⟩
    | @group e _ _ known read explains =>
      simp only [known, read, Option.bind_some, unnamed read explains.standsIn, Option.none_or]
      exact groupArgumentHover?_eq_some_iff.mpr
        ⟨a, explains, touches, by rw [Entry.line_of_parse? read]⟩
    | rule known explains =>
      simp only [known]
      exact ruleHover?_eq_some_iff.mpr ⟨a, explains, touches, rfl⟩

/-! ## What a hover covers -/

/-- Something is shown on lines of the document only. -/
theorem Explains.line_ne_nil {n : Nat} {a : Span} {content : Summary}
    (explains : doc.Explains n a content) : doc.line n ≠ [] := by
  intro void
  have unread {e : Entry} (read : Entry.ofLine? n (doc.line n) = some e) : False := by
    rw [void] at read
    cases read
  have unspelled {k : RuleType}
      (spelled : (NumberedLine.mk n (doc.line n)).pieces.first.text = Keyword.text k) : False := by
    rw [void] at spelled
    cases k <;> cases spelled
  cases explains with
  | setting _ read => exact unread read
  | name _ read => exact unread read
  | proxy _ read => exact unread read
  | group _ read => exact unread read
  | rule _ explains =>
    cases explains with
    | type spelled => exact unspelled spelled
    | target spelled => exact unspelled spelled

theorem Explains.covers {n : Nat} {a : Span} {content : Summary}
    (explains : doc.Explains n a content) : (a.range n).Covers doc a.text := by
  have stands := explains.standsIn.append_right (doc.line n).comment
  rw [uncommented_append_comment] at stands
  exact stands.covers (mem_lines_of_line_ne_nil explains.line_ne_nil).1
    (le_lineCount_of_line_ne_nil explains.line_ne_nil)

/-- A hover stands on the line of the cursor in front of the comment, reaches to the cursor, and
covers the token that its content is about. -/
theorem hover_covers_token {p : Position} (found : doc.hoverAt? p = some hover) :
    hover.range.LiesOn p.line ∧
    hover.range.stop.column ≤ (doc.line p.line).uncommented.length + 1 ∧
    hover.range.touches p = true ∧
    ∃ a, doc.Explains p.line a hover.content ∧ hover.range = a.range p.line ∧
      hover.range.Covers doc a.text := by
  obtain ⟨a, explains, touches, range⟩ := hoverAt?_eq_some_iff.mp found
  rw [range]
  refine ⟨a.liesOn_range p.line, ?_, ?_, a, explains, rfl, explains.covers⟩
  · have ends := explains.standsIn.endColumn_le
    change a.endColumn ≤ _
    omega
  · rw [Range.touches_iff, Position.upTo_iff, Position.upTo_iff]
    exact ⟨.inr ⟨rfl, (Span.touches_iff.mp touches).1⟩, .inr ⟨rfl, (Span.touches_iff.mp touches).2⟩⟩

/-- A cursor right in front of the `=` of a property is on its key, one behind it on its value. -/
theorem hover_covers_token_around_equals :
    let doc := Document.parse
      "[Proxy]\nä = direct\n[Proxy Group]\n组 = failover, ä, last-resort=ä # ä".toList
    (∃ hover, doc.hoverAt? ⟨4, 29⟩ = some hover ∧ hover.range = ⟨⟨4, 18⟩, ⟨4, 29⟩⟩ ∧
      ∃ a, doc.Explains 4 a hover.content ∧ hover.range.Covers doc a.text) ∧
    ∃ hover, doc.hoverAt? ⟨4, 30⟩ = some hover ∧ hover.range = ⟨⟨4, 30⟩, ⟨4, 31⟩⟩ ∧
      ∃ a, doc.Explains 4 a hover.content ∧ hover.range.Covers doc a.text := by
  intro doc
  have key : doc.hoverAt? ⟨4, 29⟩ = some
      ⟨Keyword.summary "property" GroupProperty.lastResort, ⟨⟨4, 18⟩, ⟨4, 29⟩⟩⟩ := by decide +kernel
  have value : doc.hoverAt? ⟨4, 30⟩ = some ⟨⟨"(proxy) ä = direct", none⟩, ⟨⟨4, 30⟩, ⟨4, 31⟩⟩⟩ := by
    decide +kernel
  obtain ⟨-, -, -, a, explains, -, covers⟩ := hover_covers_token key
  obtain ⟨-, -, -, b, explains', -, covers'⟩ := hover_covers_token value
  exact ⟨⟨_, key, rfl, a, explains, covers⟩, _, value, rfl, b, explains', covers'⟩

end Document

end ProxyConfig

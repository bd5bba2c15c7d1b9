import ProxyConfig.Proofs.Hover
import ProxyConfig.Proofs.Validation.Grammar

/-! # Hosts and ports

The check of a proxy and the summary of its declaration take the host and the port from the plain
arguments in front of the first property. The hover takes an argument by its number and asks only
whether that argument is plain itself. So a host that is shown is the host of the proxy, and a port
that is shown is the port of the proxy unless a property stands in the place of the host; the proxy
then has neither.
-/

namespace ProxyConfig

open Text

namespace Pieces

variable {p : Pieces} {i : Nat} {a : Span}

theorem plainCount_eq_findIdx (p : Pieces) : p.plainCount = p.toList.findIdx fun a => !a.isPlain := by
  rw [plainCount, List.takeWhile_eq_take_findIdx_not, List.length_take]
  exact Nat.min_eq_left List.findIdx_le_length

/-- An argument stands in front of the properties if it and all before it are plain. -/
theorem lt_plainCount_iff (piece : p.piece? i = some a) :
    i < p.plainCount ↔ ∀ j ≤ i, ∀ b, p.piece? j = some b → b.isPlain = true := by
  obtain ⟨inside, -⟩ := List.getElem?_eq_some_iff.mp piece
  rw [plainCount_eq_findIdx, List.lt_findIdx_iff]
  constructor
  · rintro ⟨_, plain⟩ j upTo b other
    obtain ⟨_, rfl⟩ := List.getElem?_eq_some_iff.mp other
    simpa using plain j upTo
  · intro plain
    refine ⟨inside, fun j upTo => ?_⟩
    simpa using plain j upTo _ (List.getElem?_eq_getElem (Nat.lt_of_le_of_lt upTo inside))

/-- The operands are the arguments behind the first one and in front of the properties. -/
theorem operands_getElem?_eq_some_iff :
    p.operands[i]? = some a ↔ p.piece? (i + 1) = some a ∧ i + 1 < p.plainCount := by
  have cut : p.toList.takeWhile Span.isPlain = p.toList.take p.plainCount := by
    rw [plainCount_eq_findIdx, List.takeWhile_eq_take_findIdx_not]
  rw [operands, cut, List.getElem?_tail, List.getElem?_take, Option.ite_none_right_eq_some, piece?,
    and_comm]

end Pieces

namespace Entry

variable {e : Entry} {a : Span} {i : Nat} {label : String}

/-- An argument that is plain itself stands at a number behind a protocol that needs a host. -/
structure Endpoint (e : Entry) (i : Nat) (a : Span) : Prop where
  hosted : ∃ k : Protocol, Keyword.parse? e.arguments.first.text = some k ∧ k.requiresHost = true
  piece : e.arguments.piece? i = some a
  plain : a.isPlain = true

/-- A protocol is no property. -/
theorem Endpoint.isPlain_first (endpoint : e.Endpoint i a) : e.arguments.first.isPlain = true := by
  obtain ⟨_, known, -⟩ := endpoint.hosted
  exact Span.isPlain_of_parse? (fun k => by cases k <;> decide) known

/-- The summary lists the operands as they are counted. -/
theorem Endpoint.endpointItems_getElem? (endpoint : e.Endpoint i a) {j : Nat}
    (named : ["host", "port"][j]? = some label) (operand : e.arguments.operands[j]? = some a) :
    e.endpointItems[j]? = some (labelled label.toList a.text) := by
  obtain ⟨k, known, hosted⟩ := endpoint.hosted
  have pair : (["host", "port"].zip e.arguments.operands)[j]? = some (label, a) :=
    List.getElem?_zip_eq_some.mpr ⟨named, operand⟩
  simp only [endpointItems, known, hosted, if_true, List.getElem?_map, pair, Option.map_some]

/-- The plain argument behind the protocol is the first operand. -/
theorem Endpoint.host (endpoint : e.Endpoint 1 a) :
    1 < e.arguments.plainCount ∧ e.arguments.operands[0]? = some a := by
  have counted : 1 < e.arguments.plainCount := by
    refine (Pieces.lt_plainCount_iff endpoint.piece).mpr fun j upTo b other => ?_
    obtain rfl | rfl : j = 0 ∨ j = 1 := by omega
    · cases other
      exact endpoint.isPlain_first
    · rw [← Option.some.inj (endpoint.piece.symm.trans other)]
      exact endpoint.plain
  exact ⟨counted, Pieces.operands_getElem?_eq_some_iff.mpr ⟨endpoint.piece, counted⟩⟩

/-- The plain argument behind the next one is the second operand, or there are no operands. -/
theorem Endpoint.port (endpoint : e.Endpoint 2 a) :
    (2 < e.arguments.plainCount ∧ e.arguments.operands[1]? = some a) ∨
      e.arguments.operands = [] ∧ ∃ b, e.arguments.piece? 1 = some b ∧ b.isPlain = false := by
  cases others : e.arguments.others with
  | nil =>
    have piece := endpoint.piece
    rw [Pieces.piece?, Pieces.toList, others] at piece
    cases piece
  | cons b rest =>
    have first : e.arguments.piece? 1 = some b := by
      rw [Pieces.piece?, Pieces.toList, others]
      rfl
    cases plain : b.isPlain with
    | false =>
      refine .inr ⟨?_, b, first, plain⟩
      rw [Pieces.operands_of_isPlain endpoint.isPlain_first, others]
      exact List.takeWhile_cons_of_neg (Bool.eq_false_iff.mp plain)
    | true =>
      have counted : 2 < e.arguments.plainCount := by
        refine (Pieces.lt_plainCount_iff endpoint.piece).mpr fun j upTo c other => ?_
        obtain rfl | rfl | rfl : j = 0 ∨ j = 1 ∨ j = 2 := by omega
        · cases other
          exact endpoint.isPlain_first
        · rwa [← Option.some.inj (first.symm.trans other)]
        · rw [← Option.some.inj (endpoint.piece.symm.trans other)]
          exact endpoint.plain
      exact .inl ⟨counted, Pieces.operands_getElem?_eq_some_iff.mpr ⟨endpoint.piece, counted⟩⟩

theorem not_mem_endpoint_label (counted : (i, label) ∈ [(1, "host"), (2, "port")]) :
    ')' ∉ label.toList := by
  rcases List.mem_pair.mp counted with same | same <;> cases same <;> decide

/-- What is shown as the host or the port of a proxy is the plain argument at its number. -/
theorem ExplainsProxy.endpoint_of_labelled {content : Summary} (explains : e.ExplainsProxy a content)
    (clean : ∀ b ∈ e.arguments.toList, '#' ∉ b.text)
    (counted : (i, label) ∈ [(1, "host"), (2, "port")]) (labelled : content.Labelled label) :
    e.Endpoint i a := by
  have closed := not_mem_endpoint_label counted
  cases explains with
  | @protocol k =>
    obtain rfl := labelled.unique (Keyword.labelled_summary "protocol" k) closed (by decide)
    simp at counted
  | @property k key =>
    obtain rfl := labelled.unique (Keyword.labelled_summary "property" key) closed (by decide)
    simp at counted
  | @endpoint k j other _ spelled hosted counted' piece solid plain =>
    obtain rfl := labelled.unique (Summary.labelled_mk other _ none) closed
      (not_mem_endpoint_label counted')
    obtain rfl : i = j := by
      rcases List.mem_pair.mp counted with same | same <;> cases same <;>
        simp at counted' <;> exact counted'.symm
    refine ⟨⟨k, Keyword.parse?_eq_some_iff.mpr spelled.symm, hosted⟩, piece, ?_⟩
    rw [Span.isPlain_iff]
    rw [Span.property?, Entry.parse?_eq_none_iff,
      uncommented_of_not_mem (clean a (List.mem_of_getElem? piece))] at plain
    exact plain

end Entry

namespace Document

variable {doc : Document} {p : Position} {hover : Hover}

/-- A hover on the line of a proxy that is labelled as a host or a port is on an endpoint. -/
theorem exists_endpoint_of_labelled (proxy : doc.kindAt? p.line = some .proxy)
    (found : doc.hoverAt? p = some hover) {i : Nat} {label : String}
    (counted : (i, label) ∈ [(1, "host"), (2, "port")])
    (labelled : hover.content.Labelled label) :
    ∃ e a, Entry.ofLine? p.line (doc.line p.line) = some e ∧ hover.range = a.range p.line ∧
      e.Endpoint i a := by
  obtain ⟨a, explains, -, range⟩ := hoverAt?_eq_some_iff.mp found
  generalize shown : hover.content = content at explains labelled
  cases explains with
  | setting known =>
    rw [proxy] at known
    cases known
  | name =>
    rcases Declaration.eq_of_labelled_summary labelled (Entry.not_mem_endpoint_label counted) with
      rfl | rfl <;> simp at counted
  | @proxy e _ _ known read explains =>
    exact ⟨e, a, read, range,
      explains.endpoint_of_labelled (fun _ member => Entry.not_mem_arguments read member) counted
        labelled⟩
  | group known =>
    rw [proxy] at known
    cases known
  | rule known =>
    rw [proxy] at known
    cases known

/-- The host that is shown is the first operand of the proxy, as the check and the summary take it. The
port that is shown is the second operand, or the proxy has no operands at all because a property
stands right behind the protocol. -/
theorem endpoint_hover_operands (proxy : doc.kindAt? p.line = some .proxy)
    (found : doc.hoverAt? p = some hover) :
    (hover.content.Labelled "host" → ∃ e a, Entry.ofLine? p.line (doc.line p.line) = some e ∧
      hover.range = a.range p.line ∧ e.Endpoint 1 a ∧ 1 < e.arguments.plainCount ∧
      e.arguments.operands[0]? = some a ∧
      e.endpointItems[0]? = some (labelled "host".toList a.text)) ∧
    (hover.content.Labelled "port" → ∃ e a, Entry.ofLine? p.line (doc.line p.line) = some e ∧
      hover.range = a.range p.line ∧ e.Endpoint 2 a ∧
      (2 < e.arguments.plainCount ∧ e.arguments.operands[1]? = some a ∧
          e.endpointItems[1]? = some (labelled "port".toList a.text) ∨
        e.arguments.operands = [] ∧ ∃ b, e.arguments.piece? 1 = some b ∧ b.isPlain = false)) := by
  constructor
  · intro host
    obtain ⟨e, a, read, range, endpoint⟩ :=
      exists_endpoint_of_labelled proxy found (List.mem_cons_self ..) host
    obtain ⟨counted, operand⟩ := endpoint.host
    exact ⟨e, a, read, range, endpoint, counted, operand, endpoint.endpointItems_getElem? rfl operand⟩
  · intro port
    obtain ⟨e, a, read, range, endpoint⟩ :=
      exists_endpoint_of_labelled proxy found (List.mem_cons_of_mem _ (List.mem_cons_self ..)) port
    refine ⟨e, a, read, range, endpoint, endpoint.port.imp_left fun ⟨counted, operand⟩ => ?_⟩
    exact ⟨counted, operand, endpoint.endpointItems_getElem? rfl operand⟩

/-- Both endpoints are shown where no property is in the way. -/
theorem endpoint_hover_operands_both :
    let doc := Document.parse "[Proxy]\np = shadowsocks, h, 80, password=x".toList
    (∃ hover, doc.hoverAt? ⟨2, 18⟩ = some hover ∧ ∃ e a, Entry.ofLine? 2 (doc.line 2) = some e ∧
      hover.range = a.range 2 ∧ e.arguments.operands[0]? = some a) ∧
    ∃ hover, doc.hoverAt? ⟨2, 21⟩ = some hover ∧ ∃ e a, Entry.ofLine? 2 (doc.line 2) = some e ∧
      hover.range = a.range 2 ∧ e.arguments.operands[1]? = some a := by
  intro doc
  let e : Entry := ⟨2, ⟨"p".toList, 1⟩, ⟨"shadowsocks, h, 80, password=x".toList, 5⟩⟩
  have proxy : doc.kindAt? 2 = some .proxy := by decide +kernel
  have read : Entry.ofLine? 2 (doc.line 2) = some e := by decide +kernel
  have host : doc.hoverAt? ⟨2, 18⟩ = some ⟨⟨"(host) h", none⟩, ⟨⟨2, 18⟩, ⟨2, 19⟩⟩⟩ := by
    decide +kernel
  have port : doc.hoverAt? ⟨2, 21⟩ = some ⟨⟨"(port) 80", none⟩, ⟨⟨2, 21⟩, ⟨2, 23⟩⟩⟩ := by
    decide +kernel
  obtain ⟨f, a, at?, range, -, -, operand, -⟩ :=
    (endpoint_hover_operands proxy host).1 ⟨" h".toList, by decide⟩
  obtain ⟨g, b, at?', range', -, ⟨-, operand', -⟩ | ⟨none, -⟩⟩ :=
    (endpoint_hover_operands proxy port).2 ⟨" 80".toList, by decide⟩
  · exact ⟨⟨_, host, f, a, at?, range, operand⟩, _, port, g, b, at?', range', operand'⟩
  · obtain rfl := Option.some.inj (read.symm.trans at?')
    exact absurd none (by decide +kernel)

/-- A port is also shown where a property stands in the place of the host, and the proxy has none. -/
theorem port_hover_behind_property :
    ¬ ∀ (doc : Document) (p : Position) (hover : Hover), doc.kindAt? p.line = some .proxy →
      doc.hoverAt? p = some hover → hover.content.Labelled "port" →
      ∃ e a, Entry.ofLine? p.line (doc.line p.line) = some e ∧ hover.range = a.range p.line ∧
        e.Endpoint 2 a ∧ 2 < e.arguments.plainCount := by
  intro holds
  let doc := Document.parse "[Proxy]\np = shadowsocks, a=b, 80".toList
  let e : Entry := ⟨2, ⟨"p".toList, 1⟩, ⟨"shadowsocks, a=b, 80".toList, 5⟩⟩
  have read : Entry.ofLine? 2 (doc.line 2) = some e := by decide +kernel
  have shown : doc.hoverAt? ⟨2, 23⟩ = some ⟨⟨"(port) 80", none⟩, ⟨⟨2, 23⟩, ⟨2, 25⟩⟩⟩ := by
    decide +kernel
  obtain ⟨f, a, at?, -, -, counted⟩ :=
    holds doc ⟨2, 23⟩ _ (by decide +kernel) shown ⟨" 80".toList, by decide⟩
  obtain rfl := Option.some.inj (read.symm.trans at?)
  exact absurd counted (by decide +kernel)

end Document

end ProxyConfig

import ProxyConfig.Proofs.Client.Ranges
import ProxyConfig.Proofs.Partition
import ProxyConfig.Proofs.Validation.Regrouped

/-! # Errors are local

What stands behind the `=` of a declaration is seen by the check of that declaration and by nothing
else. The tables of names hold keys only, and a check of a declaration reports on its own line. So an
edit of the value changes no diagnostic on another line.
-/

namespace ProxyConfig

open Text

section Reports

variable {n : Nat}

/-- The diagnostics that are not on line `n`. -/
def offLine (n : Nat) (report : List Diagnostic) : List Diagnostic :=
  report.filter fun d => !decide (d.range.LiesOn n)

theorem offLine_append (first second : List Diagnostic) :
    offLine n (first ++ second) = offLine n first ++ offLine n second :=
  List.filter_append ..

theorem offLine_eq_nil {report : List Diagnostic} (on : ∀ d ∈ report, d.range.LiesOn n) :
    offLine n report = [] := by
  refine List.filter_eq_nil_iff.mpr fun d member => ?_
  rw [decide_eq_true (on d member)]
  exact Bool.false_ne_true

/-- A report that stays the same when all its lines move to one line is on that line. -/
theorem liesOn_of_fixed {report : List Diagnostic} {line : Nat}
    (fixed : report = report.map (Diagnostic.moved fun _ => line)) :
    ∀ d ∈ report, d.range.LiesOn line := by
  intro d member
  rw [fixed] at member
  obtain ⟨-, -, rfl⟩ := List.mem_map.mp member
  exact ⟨rfl, rfl⟩

theorem liesOn_of_mem_checkProxy (e : Entry) : ∀ d ∈ checkProxy e, d.range.LiesOn e.line :=
  liesOn_of_fixed (checkProxy_moved (f := fun _ => e.line) e)

theorem liesOn_of_mem_checkGroup (names : List Text) (e : Entry) :
    ∀ d ∈ checkGroup names e, d.range.LiesOn e.line :=
  liesOn_of_fixed (checkGroup_moved (f := fun _ => e.line) e names)

end Reports

/-- Entries with the same key, and with the same value if they are not on line `n`. -/
structure Entry.SameOff (n : Nat) (e e' : Entry) : Prop where
  line : e'.line = e.line
  key : e'.key = e.key
  elsewhere : e.line ≠ n → e' = e

/-- Lines that are the same unless they have number `n`, and then have entries with the same key. -/
structure NumberedLine.SameOff (n : Nat) (l l' : NumberedLine) : Prop where
  number : l'.number = l.number
  elsewhere : l.number ≠ n → l' = l
  isVoid : l'.text.isVoid = l.text.isVoid
  entry? : Option.Rel (Entry.SameOff n) l.entry? l'.entry?

structure ActorLine.SameOff (n : Nat) (l l' : ActorLine) : Prop where
  kind : l'.kind = l.kind
  line : l.line.SameOff n l'.line

structure Declaration.SameOff (n : Nat) (d d' : Declaration) : Prop where
  kind : d'.kind = d.kind
  entry : d.entry.SameOff n d'.entry

variable {n : Nat}

theorem Entry.SameOff.refl (e : Entry) : e.SameOff n e := ⟨rfl, rfl, fun _ => rfl⟩

theorem NumberedLine.SameOff.refl (l : NumberedLine) : l.SameOff n l where
  number := rfl
  elsewhere _ := rfl
  isVoid := rfl
  entry? := by
    cases l.entry? with
    | none => exact .none
    | some e => exact .some (.refl e)

/-- Where no line has number `n`, the lines are the same. -/
theorem NumberedLine.eq_of_sameOff {lines lines' : List NumberedLine}
    (same : List.Forall₂ (NumberedLine.SameOff n) lines lines') (off : ∀ l ∈ lines, l.number ≠ n) :
    lines' = lines := by
  induction same with
  | nil => rfl
  | cons here _ ih =>
    obtain ⟨first, others⟩ := List.forall_mem_cons.mp off
    rw [here.elsewhere first, ih others]

section Keys

/-- The key of an entry depends on what stands before the first `=` of its line. -/
theorem NumberedLine.exists_entry? {l : NumberedLine} {key rest : Text}
    (text : l.text = key ++ '=' :: rest) (keyed : '=' ∉ key) (clean : '#' ∉ key) :
    ∃ e, l.entry? = some e ∧ e.line = l.number ∧
      e.key = .trimmed (1 + (key.takeWhile isBlank).length) key.trimStart := by
  have bare : l.text.uncommented = key ++ '=' :: Text.uncommented rest := by
    have kept : ∀ c ∈ key ++ ['='], (c != '#') = true := by
      intro c member
      rw [bne_iff_ne]
      rintro rfl
      simp [clean] at member
    have whole : ((key ++ ['=']) ++ rest).takeWhile (· != '#') =
        (key ++ ['=']) ++ rest.takeWhile (· != '#') := List.takeWhile_append_of_pos kept
    rw [text, uncommented, uncommented]
    simpa using whole
  have solid : l.text.uncommented.allBlank = false := by
    rw [bare]
    exact allBlank_of_mem (List.mem_append_right _ (List.mem_cons_self ..)) (by decide)
  have column : l.content.column = 1 + (key.takeWhile isBlank).length := by
    rw [content, Span.trimmed, if_neg (Bool.eq_false_iff.mp solid), bare,
      takeWhile_blank_append_cons key (by decide)]
  have trimmed : l.content.text = Text.trimEnd (key.trimStart ++ '=' :: Text.uncommented rest) := by
    rw [content, Span.text_trimmed, trim, bare, trimStart_append_cons key (by decide)]
  obtain ⟨trail, blank, split⟩ := exists_trimEnd_append (key.trimStart ++ '=' :: Text.uncommented rest)
  have start : '=' ∉ key.trimStart := fun member => keyed ((List.dropWhile_sublist _).mem member)
  -- trimming behind the value leaves the key to be cut off
  have cut : ∃ value, cut? '=' l.content.text = some (key.trimStart, value) := by
    have whole := cut?_append_cons start (Text.uncommented rest)
    rw [split, cut?_append_right _ (not_mem_of_allBlank blank (by decide)), ← trimmed] at whole
    obtain ⟨⟨front, value⟩, found, same⟩ := Option.map_eq_some_iff.mp whole
    obtain ⟨rfl, -⟩ := Prod.mk.inj same
    exact ⟨value, found⟩
  obtain ⟨value, found⟩ := cut
  have unmarked : '#' ∉ l.content.text := by
    rw [content, Span.text_trimmed]
    exact fun member => not_mem_uncommented l.text (mem_of_mem_trim member)
  rw [NumberedLine.entry?, Entry.parse?_eq, uncommented_of_not_mem unmarked, found, column]
  exact ⟨_, rfl, rfl, rfl⟩

end Keys

section Declarations

variable {d d' : Declaration} {earlier earlier' : List Declaration}

theorem ActorLine.SameOff.declaration? {l l' : ActorLine} (same : l.SameOff n l') :
    Option.Rel (Declaration.SameOff n) l.declaration? l'.declaration? := by
  have entries := same.line.entry?
  rw [ActorLine.declaration?, ActorLine.declaration?, same.kind]
  generalize l.line.entry? = e?, l'.line.entry? = e'? at entries
  cases entries with
  | none => exact .none
  | some entry => exact .some ⟨rfl, entry⟩

theorem Declaration.SameOff.name (same : d.SameOff n d') : d'.name = d.name := by
  rw [Declaration.name, Declaration.name, same.entry.key]

theorem Declaration.SameOff.nameRange (same : d.SameOff n d') : d'.nameRange = d.nameRange := by
  rw [Declaration.nameRange, Declaration.nameRange, Entry.keyRange, Entry.keyRange, same.entry.key,
    same.entry.line]

/-- The report on a name sees keys only. -/
theorem checkName_sameOff (before : List.Forall₂ (Declaration.SameOff n) earlier earlier')
    (same : d.SameOff n d') : checkName earlier' d' = checkName earlier d := by
  have first (kind : ActorKind) : Option.Rel (Declaration.SameOff n) (d.firstAmong? kind earlier)
      (d'.firstAmong? kind earlier') :=
    before.find? fun e e' here => by rw [here.kind, here.name, same.name]
  have issues : d'.duplicateIssue = d.duplicateIssue ∧ d'.conflictIssue = d.conflictIssue := by
    rw [Declaration.duplicateIssue, Declaration.duplicateIssue, Declaration.conflictIssue,
      Declaration.conflictIssue, same.kind, same.name]
    exact ⟨rfl, rfl⟩
  have own := first d.kind
  have other := first d.kind.other
  rw [checkName, checkName, same.kind, issues.1, issues.2, same.nameRange]
  generalize d.firstAmong? d.kind earlier = a?, d'.firstAmong? d.kind earlier' = a'? at own
  generalize d.firstAmong? d.kind.other earlier = b?, d'.firstAmong? d.kind.other earlier' = b'?
    at other
  cases own with
  | some here => dsimp only; rw [here.nameRange]
  | none =>
    cases other with
    | some here => dsimp only; rw [here.nameRange]
    | none => rfl

theorem offLine_checkDeclaration (before : List.Forall₂ (Declaration.SameOff n) earlier earlier')
    (same : d.SameOff n d') :
    offLine n (checkDeclaration earlier' d') = offLine n (checkDeclaration earlier d) := by
  rw [checkDeclaration, checkDeclaration, offLine_append, offLine_append, checkName_sameOff before same,
    same.kind]
  congr 1
  cases d.kind with
  | group => rfl
  | proxy =>
    dsimp only
    by_cases on : d.entry.line = n
    · have on' : d'.entry.line = n := same.entry.line.trans on
      rw [offLine_eq_nil (on' ▸ liesOn_of_mem_checkProxy d'.entry),
        offLine_eq_nil (on ▸ liesOn_of_mem_checkProxy d.entry)]
    · rw [same.entry.elsewhere on]

/-- One declaration after the other is reported alike, behind declarations with the same keys. -/
theorem offLine_checkDeclarationsFrom {lines lines' : List ActorLine}
    (same : List.Forall₂ (ActorLine.SameOff n) lines lines')
    (before : List.Forall₂ (Declaration.SameOff n) earlier earlier') :
    offLine n (checkDeclarationsFrom earlier' lines') =
      offLine n (checkDeclarationsFrom earlier lines) := by
  induction same generalizing earlier earlier' with
  | nil => rfl
  | @cons l l' rest rest' here _ ih =>
    have declarations := here.declaration?
    rw [checkDeclarationsFrom, checkDeclarationsFrom]
    generalize l.declaration? = d?, l'.declaration? = d'? at declarations
    cases declarations with
    | some declared =>
      dsimp only
      rw [offLine_append, offLine_append, offLine_checkDeclaration before declared,
        ih (List.rel_append before (.cons declared .nil))]
    | none =>
      dsimp only
      rw [← List.singleton_append, ← List.singleton_append (l := checkDeclarationsFrom earlier rest),
        offLine_append, offLine_append, ih before]
      congr 1
      by_cases on : l.line.number = n
      · have reported (m : NumberedLine) (number : m.number = n) :
            ∀ d ∈ [m.report .declarationWithoutEquals], d.range.LiesOn n :=
          List.forall_mem_singleton.mpr (number ▸ m.content.liesOn_range m.number)
        rw [offLine_eq_nil (reported l'.line (here.line.number.trans on)),
          offLine_eq_nil (reported l.line on)]
      · rw [here.line.elsewhere on]

end Declarations

/-- The second document differs from the first one at most in the value of a declaration of an actor,
on line `n`. -/
structure Document.SameOff (n : Nat) (doc doc' : Document) : Prop where
  count : doc'.lineCount = doc.lineCount
  elsewhere : ∀ m, m ≠ n → doc'.line m = doc.line m
  line : ∀ m, NumberedLine.SameOff n ⟨m, doc.line m⟩ ⟨m, doc'.line m⟩
  sections : doc'.sections = doc.sections
  owner : ∃ t ∈ doc.sections, n ∈ t.bodyLines ∧ t.actorKind?.isSome = true

namespace Document

section Lines

variable {doc doc' : Document}

/-- An edit behind the `=` of a declaration. -/
theorem sameOff {key rest rest' : Text} (count : doc'.lineCount = doc.lineCount)
    (elsewhere : ∀ m, m ≠ n → doc'.line m = doc.line m) (text : doc.line n = key ++ '=' :: rest)
    (text' : doc'.line n = key ++ '=' :: rest') (keyed : '=' ∉ key) (clean : '#' ∉ key)
    (body : headerName? (doc.line n) = none) (body' : headerName? (doc'.line n) = none)
    (owner : ∃ t ∈ doc.sections, n ∈ t.bodyLines ∧ t.actorKind?.isSome = true) :
    doc.SameOff n doc' where
  count := count
  elsewhere := elsewhere
  owner := owner
  sections := by
    have solid {line value : Text} (split : line = key ++ '=' :: value) : line.allBlank = false := by
      rw [split]
      exact allBlank_of_mem (List.mem_append_right _ (List.mem_cons_self ..)) (by decide)
    have each {α : Type} (f : Text → α) (here : f (doc'.line n) = f (doc.line n)) :
        doc'.lines.map f = doc.lines.map f := by
      rw [lines_eq_map, lines_eq_map doc, count, List.map_map, List.map_map]
      refine List.map_congr_left fun m _ => ?_
      by_cases on : m = n
      · rw [on]
        exact here
      · exact congrArg f (elsewhere m on)
    exact Section.ofLines_congr (each headerName? (body'.trans body.symm))
      (each Text.allBlank ((solid text').trans (solid text).symm))
  line m := by
    by_cases on : m = n
    · obtain ⟨e, read, line, keySpan⟩ :=
        NumberedLine.exists_entry? (l := ⟨m, doc.line m⟩) (on ▸ text) keyed clean
      obtain ⟨e', read', line', keySpan'⟩ :=
        NumberedLine.exists_entry? (l := ⟨m, doc'.line m⟩) (on ▸ text') keyed clean
      have full {l : NumberedLine} {f : Entry} (entry : l.entry? = some f) :
          l.text.isVoid = false := by
        have content := NumberedLine.solid_of_entry? entry
        rwa [← Bool.not_eq_true, NumberedLine.content_isEmpty_iff, Bool.not_eq_true] at content
      refine ⟨rfl, fun off => absurd on off, (full read').trans (full read).symm, ?_⟩
      rw [read, read']
      exact .some ⟨line'.trans line.symm, keySpan'.trans keySpan.symm,
        fun off => absurd (line.trans on) off⟩
    · rw [elsewhere m on]
      exact .refl _

end Lines

namespace SameOff

variable {doc doc' : Document} (same : doc.SameOff n doc')

include same

theorem map_lines (numbers : List Nat) : List.Forall₂ (NumberedLine.SameOff n)
    (numbers.map fun m => ⟨m, doc.line m⟩) (numbers.map fun m => ⟨m, doc'.line m⟩) := by
  rw [List.forall₂_map_left_iff, List.forall₂_map_right_iff]
  exact List.forall₂_same.mpr fun m _ => same.line m

theorem solidLines (sections : List Section) :
    List.Forall₂ (NumberedLine.SameOff n) (doc.solidLines sections) (doc'.solidLines sections) := by
  refine List.rel_filter (fun l l' here => ?_) (List.forall₂_flatMap fun s _ => ?_)
  · have content (m : NumberedLine) : m.content.isEmpty = m.text.isVoid := by
      rw [Bool.eq_iff_iff]
      exact NumberedLine.content_isEmpty_iff
    dsimp only
    rw [content, content, here.isVoid]
  · exact same.map_lines s.bodyLines

/-- The line is in no section of another kind. -/
theorem solidLines_sectionsOf (kind : SectionKind) (other : kind ≠ .proxy ∧ kind ≠ .proxyGroup) :
    doc'.solidLines (doc'.sectionsOf kind) = doc.solidLines (doc.sectionsOf kind) := by
  have known : doc'.sectionsOf kind = doc.sectionsOf kind := by rw [sectionsOf, sectionsOf, same.sections]
  rw [known]
  refine NumberedLine.eq_of_sameOff (same.solidLines _) fun l member on => ?_
  obtain ⟨⟨s, chosen, inside⟩, -⟩ := mem_solidLines_iff.mp member
  obtain ⟨here, marked⟩ := List.mem_filter.mp chosen
  obtain ⟨t, there, owned, actors⟩ := same.owner
  have together := mem_body_of_mem_bodyLines doc owned
  obtain ⟨rfl, -⟩ := eq_of_mem_body here there inside together on
  rw [Section.actorKind?, eq_of_beq marked] at actors
  cases kind with
  | proxy => exact other.1 rfl
  | proxyGroup => exact other.2 rfl
  | general | rule | host | env | onDemand => cases actors

theorem actorLines : List.Forall₂ (ActorLine.SameOff n) doc.actorLines doc'.actorLines := by
  rw [Document.actorLines, Document.actorLines, same.sections]
  refine List.forall₂_flatMap fun s _ => ?_
  cases s.actorKind? with
  | none => exact .nil
  | some kind =>
    dsimp only
    rw [List.forall₂_map_left_iff, List.forall₂_map_right_iff]
    exact (same.solidLines [s]).imp fun l l' line => ⟨rfl, line⟩

theorem declared : List.Forall₂ (Declaration.SameOff n)
    (doc.actorLines.filterMap ActorLine.declaration?)
    (doc'.actorLines.filterMap ActorLine.declaration?) :=
  List.rel_filterMap (fun _ _ line => line.declaration?) same.actorLines

/-- The same names are declared. -/
theorem names : (doc'.actorLines.filterMap ActorLine.declaration?).map Declaration.name =
    (doc.actorLines.filterMap ActorLine.declaration?).map Declaration.name := by
  have equal := same.declared.map_eq_map (f := Declaration.name) (g := Declaration.name) (h := id)
    fun _ _ here => here.name
  rwa [List.map_id] at equal

theorem offLine_checkActors : offLine n doc'.checkActors = offLine n doc.checkActors := by
  have groups : List.Forall₂ (Declaration.SameOff n)
      ((doc.actorLines.filterMap ActorLine.declaration?).filter fun d => d.kind == .group)
      ((doc'.actorLines.filterMap ActorLine.declaration?).filter fun d => d.kind == .group) :=
    List.rel_filter (fun d d' here => by dsimp only; rw [here.kind]) same.declared
  rw [Document.checkActors, Document.checkActors, offLine_append, offLine_append, same.names,
    offLine_checkDeclarationsFrom same.actorLines .nil]
  congr 1
  rw [offLine, offLine, List.filter_flatMap, List.filter_flatMap]
  refine groups.flatMap_eq fun d d' here => ?_
  change offLine n _ = offLine n _
  by_cases on : d.entry.line = n
  · have on' : d'.entry.line = n := here.entry.line.trans on
    rw [offLine_eq_nil (on' ▸ liesOn_of_mem_checkGroup _ d'.entry),
      offLine_eq_nil (on ▸ liesOn_of_mem_checkGroup _ d.entry)]
  · rw [here.entry.elsewhere on]

theorem checkRules : doc'.checkRules = doc.checkRules := by
  have lines := same.solidLines_sectionsOf .rule (by decide)
  have headers : doc'.missingFinalRange = doc.missingFinalRange := by
    rw [missingFinalRange, missingFinalRange, sectionsOf, sectionsOf, same.sections]
  have pass := checkRulesFrom_moved (f := id)
    (List.forall₂_same.mpr fun l (_ : l ∈ doc.solidLines (doc.sectionsOf .rule)) => ⟨rfl, rfl⟩)
    (contains_actors_congr same.names) none
  rw [Option.map_none, funext Diagnostic.moved_id, List.map_id'] at pass
  rw [Document.checkRules, Document.checkRules, lines, headers, pass]

/-- The line stands behind a header, and is none. -/
theorem checkSections : doc'.checkSections = doc.checkSections := by
  obtain ⟨t, there, owned, -⟩ := same.owner
  have behind := (Section.mem_bodyLines_iff.mp owned).1
  have body := headerName?_of_mem_body there (mem_body_of_mem_bodyLines doc owned)
  have stray : (doc'.solid.filter fun l => doc'.sections.all fun s => l.number < s.startLine) =
      doc.solid.filter fun l => doc.sections.all fun s => l.number < s.startLine := by
    have solid : List.Forall₂ (NumberedLine.SameOff n) doc.solid doc'.solid := by
      rw [solid, solid, numbered_eq_map, numbered_eq_map doc', same.count]
      exact List.rel_filter (fun l l' here => by dsimp only; rw [here.isVoid]) (same.map_lines _)
    refine NumberedLine.eq_of_sameOff (List.rel_filter (fun l l' here => ?_) solid) fun l member on => ?_
    · dsimp only
      rw [same.sections, here.number]
    · have first := of_decide_eq_true (List.all_eq_true.mp (List.mem_filter.mp member).2 t there)
      omega
  have headers : doc'.checkHeadersFrom [] doc.sections =
      (doc.checkHeadersFrom [] doc.sections).map (Diagnostic.moved id) := by
    refine checkHeadersFrom_moved (firstsMoved_of_forall₂ .nil)
      (List.forall₂_same.mpr fun s _ => ⟨rfl, rfl⟩) fun s here => ?_
    rw [id, same.elsewhere]
    rintro rfl
    have header := headerName?_startLine here
    rw [body] at header
    cases header
  rw [funext Diagnostic.moved_id, List.map_id'] at headers
  rw [Document.checkSections, Document.checkSections, strayContent_eq, strayContent_eq, stray,
    same.sections, headers]

/-- Every validator reports alike off the line. -/
theorem offLine_run (v : Validator) : offLine n (v.run doc') = offLine n (v.run doc) := by
  have settings := same.solidLines_sectionsOf
  cases v with
  | sections => exact congrArg (offLine n) same.checkSections
  | general => exact congrArg (offLine n ∘ checkSettingsFrom []) (settings .general (by decide))
  | hosts => exact congrArg (offLine n ∘ checkHostsFrom []) (settings .host (by decide))
  | actors => exact same.offLine_checkActors
  | rules => exact congrArg (offLine n) same.checkRules
  | env =>
    exact congrArg (fun lines => offLine n (lines.flatMap checkVariable)) (settings .env (by decide))

theorem offLine_validate : offLine n doc'.validate = offLine n doc.validate := by
  rw [Document.validate, Document.validate, validateWith, validateWith, offLine, offLine,
    List.filter_flatMap, List.filter_flatMap]
  exact List.flatMap_congr fun v _ => same.offLine_run v

end SameOff

end Document

/-- Texts that differ only in what stands behind the first `=` on a line of a section of proxies or
groups have the same diagnostics off that line, in the same order. -/
theorem errors_local (s s' : Text) {n : Nat} {key rest rest' : Text} {t : Section}
    (count : (Document.parse s').lineCount = (Document.parse s).lineCount)
    (elsewhere : ∀ m, m ≠ n → (Document.parse s').line m = (Document.parse s).line m)
    (text : (Document.parse s).line n = key ++ '=' :: rest)
    (text' : (Document.parse s').line n = key ++ '=' :: rest') (keyed : '=' ∉ key) (clean : '#' ∉ key)
    (body : headerName? ((Document.parse s).line n) = none)
    (body' : headerName? ((Document.parse s').line n) = none)
    (here : t ∈ (Document.parse s).sections) (inside : n ∈ t.bodyLines)
    (kind : t.kind? = some .proxy ∨ t.kind? = some .proxyGroup) :
    (validate s').filter (fun d => !decide (d.range.LiesOn n)) =
      (validate s).filter fun d => !decide (d.range.LiesOn n) := by
  have actors : t.actorKind?.isSome = true := by
    rw [Section.actorKind?]
    rcases kind with kind | kind
    · rw [kind]
      rfl
    · rw [kind]
      rfl
  exact (Document.sameOff count elsewhere text text' keyed clean body body'
    ⟨t, here, inside, actors⟩).offLine_validate

/-- The value of a proxy is broken: the second declaration of its name and the group with an unknown
actor are reported as before. -/
theorem errors_local_proxy :
    let s := "[Proxy]\na = direct\na = direct\n[Proxy Group]\ng = static, a, b".toList
    let s' := "[Proxy]\na = socks5, # b\na = direct\n[Proxy Group]\ng = static, a, b".toList
    validate s' ≠ validate s ∧
      (validate s').filter (fun d => !decide (d.range.LiesOn 2)) =
        (validate s).filter (fun d => !decide (d.range.LiesOn 2)) ∧
      ((validate s).filter fun d => !decide (d.range.LiesOn 2)).map (fun d => d.code) =
        [some "LC202", some "LC308", some "LC412"] := by
  intro s s'
  let proxies : Section := ⟨⟨"Proxy".toList, 2⟩, 1, 3⟩
  have count : (Document.parse s).lineCount = 5 := by decide +kernel
  have count' : (Document.parse s').lineCount = 5 := by decide +kernel
  have near : ∀ m ≤ 5, m ≠ 2 → (Document.parse s').line m = (Document.parse s).line m := by
    decide +kernel
  have elsewhere : ∀ m, m ≠ 2 → (Document.parse s').line m = (Document.parse s).line m := by
    intro m off
    by_cases upTo : m ≤ 5
    · exact near m upTo off
    · rw [Document.line_eq_nil (by omega), Document.line_eq_nil (by omega)]
  have text : (Document.parse s).line 2 = "a ".toList ++ '=' :: " direct".toList := by decide +kernel
  have text' : (Document.parse s').line 2 = "a ".toList ++ '=' :: " socks5, # b".toList := by
    decide +kernel
  have here : proxies ∈ (Document.parse s).sections := by decide +kernel
  exact ⟨by decide +kernel, errors_local s s' (count'.trans count.symm) elsewhere text text'
    (by decide) (by decide) (by decide +kernel) (by decide +kernel) here (by decide)
    (.inl (by decide +kernel)), by decide +kernel⟩

end ProxyConfig

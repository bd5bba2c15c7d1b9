import ProxyConfig.Proofs.Partition
import ProxyConfig.Proofs.Validation.InertLines

/-! # Splitting a section

A header in the middle of a section, or right behind it, with the name of its kind leaves every line in
a section of the kind that it was in. So the validators report what they did, on the moved lines, and
the report on the headers has one diagnostic more, which points back to the first section of the kind.
-/

namespace ProxyConfig

open Text

namespace Document

/-- A section of a kind that was there before is reported with the first of its kind. -/
theorem checkSectionName_of_find? {earlier : List Section} {s first : Section} {kind : SectionKind}
    (known : s.kind? = some kind)
    (found : earlier.find? (fun before => before.kind? == some kind) = some first) :
    checkSectionName earlier s =
      [((Issue.duplicateSection s.name.text).on s.nameRange).withRelated first.nameRange
        (firstDefinition s.name.text)] := by
  rw [checkSectionName, known]
  dsimp only
  rw [found]

/-- No section starts before the end of the one in front of it. -/
theorem eq_nil_of_startLine_le_endLine {doc : Document} {t : Section} {earlier last rest : List Section}
    (parts : doc.sections = (earlier ++ t :: last) ++ rest)
    (inside : ∀ s ∈ last, s.startLine ≤ t.endLine) : last = [] := by
  have apart := sections_pairwise doc
  rw [parts] at apart
  have behind := (List.pairwise_append.mp (List.pairwise_append.mp apart).1).2.1
  refine List.eq_nil_iff_forall_not_mem.mpr fun s member => ?_
  have after := (List.pairwise_cons.mp behind).1 s member
  exact absurd (inside s member) (Nat.not_le.mpr after)

end Document

/-- The second document is the first one with a further header on line `k` that starts the section `u`,
in the section `t` of the same kind or right behind it. -/
structure Document.Split (k : Nat) (t u : Section) (doc doc' : Document) : Prop where
  solid : List.Forall₂ (NumberedLine.Moved (shiftedFrom k)) doc.solid
    (doc'.solid.filter fun l => l.number != k)
  cut : t ∈ doc.sections
  behind : t.startLine < k
  upTo : k ≤ t.endLine + 1
  opened : u ∈ doc'.sections
  starts : u.startLine = k
  kind : u.kind? = t.kind?

namespace Document.Split

variable {doc doc' : Document} {k : Nat} {t u : Section} (split : Split k t u doc doc')

include split

/-- The inserted line is a header. -/
theorem headerName?_of_number {l : NumberedLine} (member : l ∈ doc'.solid) (here : l.number = k) :
    headerName? l.text = some u.name := by
  rw [← line_of_mem_solid member, here, ← split.starts]
  exact headerName?_startLine split.opened

/-- What does not select the inserted line selects moved lines from the rest. -/
theorem filter_solid {p q : NumberedLine → Bool} (dropped : ∀ l ∈ doc'.solid, l.number = k → q l = false)
    (agree : ∀ l l', l.Moved (shiftedFrom k) l' → q l' = p l) :
    List.Forall₂ (NumberedLine.Moved (shiftedFrom k)) (doc.solid.filter p) (doc'.solid.filter q) := by
  have rest : doc'.solid.filter q = (doc'.solid.filter fun l => l.number != k).filter q := by
    rw [List.filter_filter]
    refine List.filter_congr fun l member => ?_
    by_cases here : l.number = k
    · rw [dropped l member here, Bool.false_and]
    · rw [bne_iff_ne.mpr here, Bool.and_true]
  rw [rest]
  refine List.rel_filter (fun l l' line => ?_) split.solid
  dsimp only
  rw [agree l l' line]

/-- The sections up to the one that is cut, the inserted one, and those behind. -/
theorem sections : ∃ earlier later earlier' later',
    doc.sections = (earlier ++ [t]) ++ later ∧ doc'.sections = earlier' ++ u :: later' ∧
      List.Forall₂ (Section.Moved (shiftedFrom k)) (earlier ++ [t]) earlier' ∧
      List.Forall₂ (Section.Moved (shiftedFrom k)) later later' ∧
      ∀ s ∈ earlier ++ [t], s.startLine < k := by
  obtain ⟨earlier', later', parts⟩ := List.append_of_mem split.opened
  have ordered := pairwise_startLine doc'
  rw [parts] at ordered
  obtain ⟨-, behind, before⟩ := List.pairwise_append.mp ordered
  have lower : ∀ s ∈ earlier', s.startLine < k := fun s member =>
    split.starts ▸ before s member u (List.mem_cons_self ..)
  have upper : ∀ s ∈ later', k < s.startLine := fun s member =>
    split.starts ▸ (List.pairwise_cons.mp behind).1 s member
  have kept : doc'.sections.filter (fun s => s.startLine != k) = earlier' ++ later' := by
    rw [parts, List.filter_append, List.filter_cons_of_neg (by simp [split.starts]),
      List.filter_eq_self.mpr fun s member => bne_iff_ne.mpr (Nat.ne_of_lt (lower s member)),
      List.filter_eq_self.mpr fun s member => bne_iff_ne.mpr (Nat.ne_of_gt (upper s member))]
  have moved := sections_moved (fun n => n != k) split.solid
  rw [kept] at moved
  let front := doc.sections.take earlier'.length
  let rest := doc.sections.drop earlier'.length
  have whole : front ++ rest = doc.sections := List.take_append_drop ..
  have left : List.Forall₂ (Section.Moved (shiftedFrom k)) front earlier' :=
    List.forall₂_take_append _ _ _ moved
  have right : List.Forall₂ (Section.Moved (shiftedFrom k)) rest later' :=
    List.forall₂_drop_append _ _ _ moved
  have beyond : ∀ s ∈ rest, k ≤ s.startLine := by
    intro s member
    obtain ⟨s', inside, same⟩ := right.exists_of_mem member
    exact lt_shiftedFrom_iff.mp (same.startLine ▸ upper s' inside)
  have upTo : ∀ s ∈ front, s.startLine < k := by
    intro s member
    obtain ⟨s', inside, same⟩ := left.exists_of_mem member
    exact shiftedFrom_lt_iff.mp (same.startLine ▸ lower s' inside)
  have member : t ∈ front := by
    rcases List.mem_append.mp (whole ▸ split.cut) with member | member
    · exact member
    · exact absurd (beyond t member) (Nat.not_le.mpr split.behind)
  obtain ⟨earlier, last, ends⟩ := List.append_of_mem member
  -- whatever starts behind the section that is cut starts behind the cut
  have alone : last = [] := by
    refine eq_nil_of_startLine_le_endLine (by rw [← whole, ends]) fun s inside => ?_
    have starts := upTo s (by rw [ends]; simp [inside])
    have reaches := split.upTo
    omega
  rw [alone] at ends
  exact ⟨earlier, rest, earlier', later', by rw [← whole, ends], parts, ends ▸ left, right,
    ends ▸ upTo⟩

/-- A line behind the cut changes from the section that is cut to the inserted one. -/
theorem owners (n : Nat) : Option.Rel (fun s s' => s'.kind? = s.kind?) (doc.sectionAt? n)
    (doc'.sectionAt? (shiftedFrom k n)) := by
  obtain ⟨earlier, later, earlier', later', parts, parts', left, right, -⟩ := split.sections
  have agree (s s' : Section) (same : s.Moved (shiftedFrom k) s') :
      decide (s'.startLine < shiftedFrom k n) = decide (s.startLine < n) := by
    rw [same.startLine, decide_eq_decide, (strictMono_shiftedFrom k).lt_iff_lt]
  have before := ((List.rel_reverse left).find? agree).imp fun _ _ same => same.kind?
  have behind := ((List.rel_reverse right).find? agree).imp fun _ _ same => same.kind?
  rw [List.reverse_append, List.reverse_singleton, List.singleton_append] at before
  have backwards : doc.sections.reverse = later.reverse ++ t :: earlier.reverse := by simp [parts]
  have backwards' : doc'.sections.reverse = later'.reverse ++ u :: earlier'.reverse := by
    simp [parts']
  rw [sectionAt?_eq_find?, sectionAt?_eq_find?, backwards, backwards', List.find?_append,
    List.find?_append]
  refine behind.or ?_
  rw [List.find?_cons (a := u), split.starts]
  by_cases reached : k ≤ n
  · have opens : decide (k < shiftedFrom k n) = true := decide_eq_true (lt_shiftedFrom_iff.mpr reached)
    have closes : decide (t.startLine < n) = true :=
      decide_eq_true (Nat.lt_of_lt_of_le split.behind reached)
    rw [opens, List.find?_cons, closes]
    exact .some split.kind
  · have stays : decide (k < shiftedFrom k n) = false :=
      decide_eq_false fun less => reached (lt_shiftedFrom_iff.mp less)
    rw [stays]
    exact before

theorem regrouped : doc.Regrouped (shiftedFrom k) doc' where
  contents := split.filter_solid
    (fun l member here => by rw [split.headerName?_of_number member here]; rfl)
    fun l l' line => by rw [line.headerName?]
  owners := split.owners
  firsts := by
    obtain ⟨earlier, later, earlier', later', parts, parts', left, right, -⟩ := split.sections
    obtain ⟨t', there, same⟩ := left.exists_of_mem (List.mem_append_right _ (List.mem_singleton_self t))
    have front := (firstsMoved_of_forall₂ left).concat_right there (split.kind.trans same.kind?.symm)
    have whole := front.append (firstsMoved_of_forall₂ right)
    rwa [← parts, List.append_assoc, List.singleton_append, ← parts'] at whole

/-- The inserted line is behind a header, and no line before the first header is. -/
theorem strayContent : doc'.strayContent = doc.strayContent.map (Diagnostic.moved (shiftedFrom k)) := by
  obtain ⟨earlier, later, earlier', later', parts, parts', left, right, -⟩ := split.sections
  rw [strayContent_eq, strayContent_eq]
  refine List.Forall₂.map_eq_map (split.filter_solid ?_ ?_) fun l l' line => line.report .strayContent
  · intro l _ here
    refine List.all_eq_false.mpr ⟨u, split.opened, ?_⟩
    rw [decide_eq_true_eq, split.starts, here]
    exact Nat.lt_irrefl k
  · intro l l' line
    have agree (s s' : Section) (same : s.Moved (shiftedFrom k) s') :
        decide (l'.number < s'.startLine) = decide (l.number < s.startLine) := by
      rw [line.number, same.startLine, decide_eq_decide, (strictMono_shiftedFrom k).lt_iff_lt]
    rw [parts, parts', List.all_append, List.all_append, List.all_cons, left.all_eq agree,
      right.all_eq agree]
    cases free : (earlier ++ [t]).all fun s => decide (l.number < s.startLine) with
    | false => rfl
    | true =>
      have first := of_decide_eq_true
        (List.all_eq_true.mp free t (List.mem_append_right _ (List.mem_singleton_self t)))
      have less : l'.number < u.startLine := by
        rw [line.number, split.starts, shiftedFrom_lt_iff]
        exact Nat.lt_trans first split.behind
      rw [decide_eq_true less, Bool.true_and]

/-- The report on the headers has one diagnostic more, which points to the first of the kind. -/
theorem checkSections {kind : SectionKind} (known : u.kind? = some kind)
    (bare : doc'.trailingHeaderText u = []) :
    ∃ first front back, (doc.sectionsOf kind).head? = some first ∧ doc.checkSections = front ++ back ∧
      doc'.checkSections = front.map (Diagnostic.moved (shiftedFrom k)) ++
        ((Issue.duplicateSection u.name.text).on u.nameRange).withRelated first.nameRange
          (firstDefinition u.name.text) :: back.map (Diagnostic.moved (shiftedFrom k)) := by
  obtain ⟨earlier, later, earlier', later', parts, parts', left, right, upTo⟩ := split.sections
  have lines : ∀ s ∈ doc.sections,
      (doc'.line (shiftedFrom k s.startLine)).uncommented = (doc.line s.startLine).uncommented :=
    fun s here => uncommented_line split.solid (fun l' member => List.mem_of_mem_filter member)
      (isVoid_of_headerName? (headerName?_startLine here))
  have none : FirstsMoved (shiftedFrom k) [] [] := firstsMoved_of_forall₂ .nil
  have firsts := firstsMoved_of_forall₂ left
  obtain ⟨t', there, same⟩ := left.exists_of_mem (List.mem_append_right _ (List.mem_singleton_self t))
  have behind := checkHeadersFrom_moved
    (firsts.concat_right there (split.kind.trans same.kind?.symm)) right fun s member =>
      lines s (by rw [parts]; exact List.mem_append_right _ member)
  have before := checkHeadersFrom_moved none left fun s member =>
    lines s (by rw [parts]; exact List.mem_append_left _ member)
  have repeated : ∃ first, (earlier ++ [t]).find? (fun s => s.kind? == some kind) = some first := by
    refine Option.isSome_iff_exists.mp (List.find?_isSome.mpr ⟨t, by simp, ?_⟩)
    rw [← split.kind, known]
    exact beq_self_eq_true _
  obtain ⟨first, found⟩ := repeated
  have low := upTo first (List.mem_of_find?_eq_some found)
  have moved := firsts kind
  rw [found] at moved
  generalize found' : earlier'.find? (fun s => s.kind? == some kind) = first? at moved
  cases moved with
  | @some _ first' movedFirst =>
    have place : first'.nameRange = first.nameRange := by
      rw [movedFirst.nameRange, Section.nameRange, Span.moved_range, shiftedFrom, if_pos low]
    have extra := checkSectionName_of_find? known found'
    rw [place] at extra
    refine ⟨first, doc.strayContent ++ doc.checkHeadersFrom [] (earlier ++ [t]),
      doc.checkHeadersFrom (earlier ++ [t]) later, ?_, ?_, ?_⟩
    · rw [sectionsOf, List.head?_filter, parts, List.find?_append, found, Option.some_or]
    · rw [Document.checkSections, parts, checkHeadersFrom_append, List.nil_append, List.append_assoc]
    · rw [Document.checkSections, parts', split.strayContent, checkHeadersFrom_append, List.nil_append,
        before, checkHeadersFrom, bare, extra, behind]
      simp only [List.map_append, List.append_assoc, List.nil_append, List.cons_append]

/-- All reports move, and the one on the headers has one diagnostic more. -/
theorem validate {kind : SectionKind} (known : u.kind? = some kind)
    (bare : doc'.trailingHeaderText u = []) :
    ∃ first front back, (doc.sectionsOf kind).head? = some first ∧ doc.validate = front ++ back ∧
      doc'.validate = front.map (doc.relocated (shiftedFrom k)) ++
        ((Issue.duplicateSection u.name.text).on u.nameRange).withRelated first.nameRange
          (firstDefinition u.name.text) :: back.map (doc.relocated (shiftedFrom k)) := by
  obtain ⟨first, front, back, start, whole, whole'⟩ := split.checkSections known bare
  let others : List Validator := [.general, .hosts, .actors, .rules, .env]
  have sections (d : Document) : d.validate = d.checkSections ++ others.flatMap fun v => v.run d := rfl
  have rest : (others.flatMap fun v => v.run doc') =
      (others.flatMap fun v => v.run doc).map (doc.relocated (shiftedFrom k)) := by
    rw [List.map_flatMap]
    refine List.flatMap_congr fun v member => split.regrouped.run ?_
    rintro rfl
    exact absurd member (by decide)
  have codes := codes_run .sections doc
  rw [Validator.run, whole, codesIn_append] at codes
  refine ⟨first, front, back ++ others.flatMap fun v => v.run doc, start, ?_, ?_⟩
  · rw [sections, whole, List.append_assoc]
  · rw [sections, whole', rest, map_relocated (by decide) codes.1, List.map_append,
      map_relocated (by decide) codes.2, List.append_assoc, List.cons_append]

end Document.Split

/-- The header line of a kind of sections. -/
def SectionKind.header (kind : SectionKind) : Text := '[' :: (Keyword.text kind ++ [']'])

namespace SectionKind

variable (kind : SectionKind)

theorem headerName?_header : headerName? kind.header = some ⟨Keyword.text kind, 2⟩ := by
  cases kind <;> rfl

theorem dropReturn_header : Text.dropReturn kind.header = kind.header := by
  cases kind <;> rfl

theorem newline_not_mem_header : '\n' ∉ kind.header := by
  cases kind <;> decide

theorem parse?_text : (Keyword.parse? (Keyword.text kind) : Option SectionKind) = some kind := by
  cases kind <;> rfl

/-- Nothing stands behind the bracket that ends the name. -/
theorem afterLastBracket?_header :
    Document.afterLastBracket? kind.header.uncommented.trimEnd = some ⟨[], kind.header.length + 1⟩ := by
  cases kind <;> rfl

end SectionKind

/-- A header of its kind splits a section. -/
theorem Document.split_insertLine {s : Text} {t : Section} (here : t ∈ (parse s).sections)
    {kind : SectionKind} (known : t.kind? = some kind) {k : Nat} (behind : t.startLine < k)
    (upTo : k ≤ t.endLine + 1) :
    ∃ u, Split k t u (parse s) (parse (s.insertLine k kind.header)) ∧
      u.name = ⟨Keyword.text kind, 2⟩ ∧
      (parse (s.insertLine k kind.header)).trailingHeaderText u = [] := by
  let doc' := parse (s.insertLine k kind.header)
  have inside : k - 1 ≤ s.lines.length := by
    have last := endLine_le_lineCount here
    change t.endLine ≤ s.lines.length at last
    omega
  have front : (s.lines.take (k - 1)).length = k - 1 := by
    rw [List.length_take, Nat.min_eq_left inside]
  have lines : doc'.lines = s.lines.take (k - 1) ++ kind.header :: s.lines.drop (k - 1) := by
    have inserted := lines_insertLine s k kind.newline_not_mem_header
    rwa [kind.dropReturn_header] at inserted
  have line : doc'.line k = kind.header := by
    rw [line_eq_getD _ (by omega), lines, List.getD_eq_getElem?_getD, List.getElem?_append_right,
      front, Nat.sub_self]
    · rfl
    · rw [front]
  have header : headerName? (doc'.line k) = some ⟨Keyword.text kind, 2⟩ := by
    rw [line, kind.headerName?_header]
  obtain ⟨u, opened, starts, name⟩ := exists_section_of_headerName? header
  have moved := solid_insert kind.header (List.take_append_drop (k - 1) (parse s).lines).symm
  have number : (List.take (k - 1) (parse s).lines).length + 1 = k := by
    rw [show (parse s).lines = s.lines from rfl, front]
    omega
  rw [number] at moved
  have same : doc' = ⟨s.lines.take (k - 1) ++ kind.header :: s.lines.drop (k - 1)⟩ :=
    congrArg Document.mk lines
  refine ⟨u, ⟨?_, here, behind, upTo, opened, starts, ?_⟩, name, ?_⟩
  · change List.Forall₂ _ _ (doc'.solid.filter _)
    rw [same]
    exact moved
  · rw [known, Section.kind?, name]
    exact kind.parse?_text
  · change doc'.trailingHeaderText u = []
    rw [trailingHeaderText, starts, line, kind.afterLastBracket?_header]
    rfl

/-- A header that splits a section, or ends it, changes no report besides moving it. The report on the
headers has one warning more, on the new header, which points to the first section of its kind. -/
theorem split_section_reported (s : Text) {t : Section} (here : t ∈ (Document.parse s).sections)
    {kind : SectionKind} (known : t.kind? = some kind) {k : Nat} (behind : t.startLine < k)
    (upTo : k ≤ t.endLine + 1) :
    let name := Keyword.text kind
    let moved := (Document.parse s).relocated (shiftedFrom k)
    ∃ first front back, ((Document.parse s).sectionsOf kind).head? = some first ∧
      validate s = front ++ back ∧
      validate (s.insertLine k kind.header) = front.map moved ++
        ((Issue.duplicateSection name).on (.onLine k 2 name.length)).withRelated first.nameRange
          (firstDefinition name) :: back.map moved := by
  obtain ⟨u, split, name, bare⟩ := Document.split_insertLine here known behind upTo
  obtain ⟨first, front, back, start, whole, whole'⟩ := split.validate (split.kind.trans known) bare
  rw [Section.nameRange, split.starts, name] at whole'
  exact ⟨first, front, back, start, whole, whole'⟩

/-- A section of proxies is split between two declarations of a name: the second of them is reported on
its new line, and the header as a repetition. -/
theorem split_between_duplicates :
    let s : Text := "[Proxy]\na = direct\na = direct".toList
    let proxies : Section := ⟨⟨"Proxy".toList, 2⟩, 1, 3⟩
    (proxies ∈ (Document.parse s).sections ∧ proxies.kind? = some .proxy) ∧
      s.insertLine 3 SectionKind.proxy.header = "[Proxy]\na = direct\n[Proxy]\na = direct".toList ∧
      (validate (s.insertLine 3 SectionKind.proxy.header)).map
          (fun d => (d.code, d.range, d.related.map Related.range)) =
        [(some "LC004", .onLine 3 2 5, [.onLine 1 2 5]), (some "LC202", .onLine 4 1 1, [.onLine 2 1 1]),
          (some "LC412", .point ⟨1, 1⟩, [])] ∧
      ∃ first front back, ((Document.parse s).sectionsOf .proxy).head? = some first ∧
        validate s = front ++ back ∧ validate (s.insertLine 3 SectionKind.proxy.header) =
          front.map ((Document.parse s).relocated (shiftedFrom 3)) ++
            ((Issue.duplicateSection "Proxy".toList).on (.onLine 3 2 5)).withRelated first.nameRange
              (firstDefinition "Proxy".toList) ::
            back.map ((Document.parse s).relocated (shiftedFrom 3)) := by
  intro s proxies
  have here : proxies ∈ (Document.parse s).sections := by decide +kernel
  have known : proxies.kind? = some .proxy := by decide +kernel
  exact ⟨⟨here, known⟩, by decide +kernel, by decide +kernel,
    split_section_reported s here known (by decide) (by decide)⟩

end ProxyConfig

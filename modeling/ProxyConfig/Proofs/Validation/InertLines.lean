import ProxyConfig.Proofs.Validation.Regrouped

/-! # Comments and blank lines are inert

A document that is moved to another one is reported moved, whatever became of its comments and its
blank lines: every validator reads the solid lines, and those move one by one. The one diagnostic that
stays is the warning about a missing `FINAL` rule where there is no section for it, since it stands at
no line of its own. Editing a comment moves no line, and inserting a void line moves those behind it
by one.
-/

namespace ProxyConfig

open Text

namespace Document

variable {f : Nat → Nat} {doc doc' : Document}

namespace Moved

variable (moved : doc.Moved f doc')

include moved

theorem regrouped : doc.Regrouped f doc' where
  contents := List.rel_filter (fun l l' line => by dsimp only; rw [line.headerName?]) moved.solid
  owners n := (moved.sectionAt? n).imp fun _ _ same => same.kind?
  firsts := firstsMoved_of_forall₂ moved.sections

theorem strayContent : doc'.strayContent = doc.strayContent.map (Diagnostic.moved f) := by
  have lines : List.Forall₂ (NumberedLine.Moved f)
      (doc.solid.filter fun l => doc.sections.all fun s => l.number < s.startLine)
      (doc'.solid.filter fun l => doc'.sections.all fun s => l.number < s.startLine) := by
    refine List.rel_filter (fun l l' line => ?_) moved.solid
    have free := moved.sections.all_eq (p := fun s => l.number < s.startLine)
      (q := fun s => l'.number < s.startLine) fun s s' same => by
        rw [line.number, same.startLine, Bool.eq_iff_iff, decide_eq_true_iff, decide_eq_true_iff,
          moved.mono.lt_iff_lt]
    dsimp only
    rw [free]
  rw [strayContent_eq, strayContent_eq]
  exact lines.map_eq_map fun l l' line => line.report .strayContent

theorem checkSections : doc'.checkSections = doc.checkSections.map (Diagnostic.moved f) := by
  have none : FirstsMoved f [] [] := firstsMoved_of_forall₂ .nil
  rw [Document.checkSections, Document.checkSections, List.map_append, moved.strayContent,
    checkHeadersFrom_moved none moved.sections fun s here =>
      moved.line (isVoid_of_headerName? (headerName?_startLine here))]

/-- Every validator reports on the moved document what it reports on the document, moved. -/
theorem run (v : Validator) : v.run doc' = (v.run doc).map (doc.relocated f) := by
  by_cases structural : v = .sections
  · have codes := codes_run v doc
    rw [structural] at codes ⊢
    exact moved.checkSections.trans (map_relocated (by decide) codes).symm
  · exact moved.regrouped.run structural

theorem validate : doc'.validate = doc.validate.map (doc.relocated f) := by
  rw [Document.validate, Document.validate, validateWith, validateWith, List.map_flatMap]
  exact List.flatMap_congr fun v _ => moved.run v

end Moved

/-- Comments alone do not move a document. -/
theorem moved_of_uncommented (same : doc'.lines.map uncommented = doc.lines.map uncommented) :
    doc.Moved id doc' where
  mono := strictMono_id
  solid := by
    have bare (d : Document) : d.numbered.map (fun l => (l.text.uncommented, l.number)) =
        (d.lines.map uncommented).zipIdx 1 := by
      rw [numbered, List.map_map, List.zipIdx_map]
      rfl
    have images := (bare doc').trans ((congrArg (List.zipIdx · 1) same).trans (bare doc).symm)
    have related := (List.forall₂_of_map_eq images).imp fun l l' pair =>
      (⟨congrArg Prod.snd pair, congrArg Prod.fst pair⟩ : l.Moved id l')
    refine List.rel_filter (fun l l' line => ?_) related
    dsimp only
    rw [line.isVoid]

end Document

namespace Text

/-- The text with a further line before its line `k`, or behind its last line. -/
def insertLine (s : Text) (k : Nat) (line : Text) : Text :=
  ['\n'].intercalate ((pieces '\n' s).take (k - 1) ++ line :: (pieces '\n' s).drop (k - 1))

theorem lines_insertLine (s : Text) (k : Nat) {line : Text} (single : '\n' ∉ line) :
    (s.insertLine k line).lines =
      s.lines.take (k - 1) ++ line.dropReturn :: s.lines.drop (k - 1) := by
  have apart : ∀ piece ∈ (pieces '\n' s).take (k - 1) ++ line :: (pieces '\n' s).drop (k - 1),
      '\n' ∉ piece := by
    intro piece member
    rcases List.mem_append.mp member with before | member
    · exact not_mem_of_mem_pieces (List.mem_of_mem_take before)
    rcases List.mem_cons.mp member with rfl | behind
    · exact single
    · exact not_mem_of_mem_pieces (List.mem_of_mem_drop behind)
  rw [lines, lines, insertLine, pieces_eq_splitOn, List.splitOn_intercalate _ apart (by simp)]
  simp [List.map_take, List.map_drop]

theorem isVoid_dropReturn {line : Text} (void : line.isVoid = true) :
    line.dropReturn.isVoid = true := by
  rw [dropReturn]
  split
  · next returned =>
    refine allBlank_iff.mpr fun c member => allBlank_iff.mp void c ?_
    rw [← List.dropLast_append_getLast? _ returned, uncommented, List.takeWhile_append]
    split
    · exact List.mem_append_left _ ((List.takeWhile_sublist _).mem member)
    · exact member
  · exact void

end Text

/-- Where a line number goes when a line is inserted before line `k`. -/
def shiftedFrom (k n : Nat) : Nat := if n < k then n else n + 1

theorem shiftedFrom_lt_iff {k n : Nat} : shiftedFrom k n < k ↔ n < k := by
  unfold shiftedFrom
  split <;> omega

theorem lt_shiftedFrom_iff {k n : Nat} : k < shiftedFrom k n ↔ k ≤ n := by
  unfold shiftedFrom
  split <;> omega

theorem strictMono_shiftedFrom (k : Nat) : StrictMono (shiftedFrom k) := by
  intro m n less
  unfold shiftedFrom
  split
  · split <;> omega
  · split <;> omega

/-- A further line moves the lines behind it. -/
theorem Document.solid_insert {doc : Document} {before after : List Text} (line : Text)
    (split : doc.lines = before ++ after) :
    List.Forall₂ (NumberedLine.Moved (shiftedFrom (before.length + 1))) doc.solid
      ((⟨before ++ line :: after⟩ : Document).solid.filter fun l => l.number != before.length + 1) := by
  have lines : List.Forall₂ (NumberedLine.Moved (shiftedFrom (before.length + 1))) doc.numbered
      ((⟨before ++ line :: after⟩ : Document).numbered.filter
        fun l => l.number != before.length + 1) := by
    rw [numbered, numbered, split, List.zipIdx_append, List.zipIdx_append, List.zipIdx_cons,
      List.zipIdx_succ (l := after), List.map_append, List.map_append, List.map_cons, List.map_map,
      List.filter_append, List.filter_cons_of_neg (by simp [Nat.add_comm])]
    refine List.rel_append ?_ ?_
    · have most : ∀ x ∈ before.zipIdx 1, x.2 < before.length + 1 := by
        rintro ⟨text, n⟩ inside
        obtain ⟨-, less⟩ := List.mem_zipIdx inside
        change n < before.length + 1
        omega
      rw [List.filter_eq_self.mpr, List.forall₂_map_left_iff, List.forall₂_map_right_iff]
      · refine List.forall₂_same.mpr fun x inside => ⟨?_, rfl⟩
        change x.2 = shiftedFrom (before.length + 1) x.2
        rw [shiftedFrom, if_pos (most x inside)]
      · intro l member
        obtain ⟨x, inside, rfl⟩ := List.mem_map.mp member
        exact bne_iff_ne.mpr (Nat.ne_of_lt (most x inside))
    · have least : ∀ x ∈ after.zipIdx (1 + before.length), before.length + 1 ≤ x.2 := by
        rintro ⟨text, n⟩ inside
        have least := (List.mk_mem_zipIdx_iff_le_and_getElem?_sub.mp inside).1
        change before.length + 1 ≤ n
        omega
      rw [List.filter_eq_self.mpr, List.forall₂_map_left_iff, List.forall₂_map_right_iff]
      · refine List.forall₂_same.mpr fun x inside => ⟨?_, rfl⟩
        have behind := least x inside
        change x.2 + 1 = shiftedFrom (before.length + 1) x.2
        rw [shiftedFrom, if_neg (by omega)]
      · intro l member
        obtain ⟨x, inside, rfl⟩ := List.mem_map.mp member
        have behind := least x inside
        change (x.2 + 1 != before.length + 1) = true
        rw [bne_iff_ne]
        omega
  rw [solid, solid, List.filter_comm]
  exact List.rel_filter (fun l l' moved => by dsimp only; rw [moved.isVoid]) lines

/-- A void line moves the lines behind it and is no line itself. -/
theorem Document.moved_of_insert {doc : Document} {before after : List Text} {line : Text}
    (split : doc.lines = before ++ after) (void : line.isVoid = true) :
    doc.Moved (shiftedFrom (before.length + 1)) ⟨before ++ line :: after⟩ where
  mono := strictMono_shiftedFrom _
  solid := by
    have moved := solid_insert line split
    rw [List.filter_eq_self.mpr] at moved
    · exact moved
    · intro l member
      rw [bne_iff_ne]
      intro here
      obtain ⟨-, found, full⟩ := mem_solid_iff.mp member
      have text : (before ++ line :: after)[before.length]? = some line := by simp
      rw [here, Nat.add_sub_cancel, text, Option.some.injEq] at found
      rw [← found, void] at full
      cases full

theorem Document.moved_insertLine {s line : Text} {k : Nat} (positive : 1 ≤ k)
    (upTo : k ≤ (parse s).lineCount + 1) (single : '\n' ∉ line) (void : line.isVoid = true) :
    (parse s).Moved (shiftedFrom k) (parse (s.insertLine k line)) := by
  have inside : k - 1 ≤ s.lines.length := by
    change k ≤ s.lines.length + 1 at upTo
    omega
  have parts := (List.take_append_drop (k - 1) s.lines).symm
  have moved : (parse s).Moved _ _ := moved_of_insert parts (isVoid_dropReturn void)
  rw [List.length_take, Nat.min_eq_left inside, Nat.sub_add_cancel positive] at moved
  rw [parse, parse, lines_insertLine s k single]
  exact moved

/-- Comments and blank lines are inert: texts whose lines differ in their comments alone are reported
alike and have the same sites of every name, and a line without content adds one to the numbers of the
lines behind it. -/
theorem comments_and_blank_lines_inert (s : Text) :
    (∀ s' : Text, s'.lines.map uncommented = s.lines.map uncommented →
      validate s' = validate s ∧ ∀ name declarations,
        (Document.parse s').sites name declarations = (Document.parse s).sites name declarations) ∧
    ∀ (k : Nat) (line : Text), 1 ≤ k → k ≤ (Document.parse s).lineCount + 1 → '\n' ∉ line →
      line.isVoid = true →
      validate (s.insertLine k line) =
          (validate s).map ((Document.parse s).relocated (shiftedFrom k)) ∧
        ∀ name declarations, (Document.parse (s.insertLine k line)).sites name declarations =
          ((Document.parse s).sites name declarations).map (NameSite.moved (shiftedFrom k)) := by
  constructor
  · intro s' same
    have moved : (Document.parse s).Moved id (Document.parse s') := Document.moved_of_uncommented same
    constructor
    · rw [validate, moved.validate, Document.relocated_id, List.map_id]
      rfl
    · intro name declarations
      rw [moved.sites, NameSite.moved_id, List.map_id]
  · intro k line positive upTo single void
    have moved := Document.moved_insertLine positive upTo single void
    exact ⟨moved.validate, moved.sites⟩

/-- A note between two declarations of a name moves the second of them alone, and the warning that
there is no `FINAL` rule stays at the start. -/
theorem note_moves_duplicate :
    let s : Text := "[Proxy]\na = direct\na = direct".toList
    let commented : Text := "[Proxy]# nodes\na = direct#\na = direct".toList
    let note := "  # once more".toList
    validate commented = validate s ∧
      s.insertLine 3 note = "[Proxy]\na = direct\n  # once more\na = direct".toList ∧
      (validate (s.insertLine 3 note)).map (fun d => (d.code, d.range, d.related.map Related.range)) =
        [(some "LC202", .onLine 4 1 1, [.onLine 2 1 1]), (some "LC412", .point ⟨1, 1⟩, [])] ∧
      (Document.parse (s.insertLine 3 note)).sites "a".toList true =
        [⟨"a".toList, .onLine 2 1 1, .declaration .proxy⟩,
          ⟨"a".toList, .onLine 4 1 1, .declaration .proxy⟩] := by
  intro s commented note
  obtain ⟨comments, voids⟩ := comments_and_blank_lines_inert s
  obtain ⟨reported, found⟩ :=
    voids 3 note (by decide) (by decide +kernel) (by decide) (by decide)
  refine ⟨(comments commented (by decide +kernel)).1, by decide +kernel, ?_, ?_⟩
  · rw [reported]
    decide +kernel
  · rw [found, Document.sites_eq_walk _ _ ⟨by decide, by decide⟩]
    decide +kernel

end ProxyConfig

import ProxyConfig.Proofs.Client.Ranges
import ProxyConfig.Proofs.Layout
import ProxyConfig.Proofs.Text.Columns
import ProxyConfig.Proofs.Text.Edit

/-! # Documents with one line exchanged

Where neither the old line nor the new one is a header, every line keeps the kind of its section. The
blank lines at the end of a section may come to belong to it, or no longer do, but a line that holds
something is an entry of its section before and after.
-/

namespace ProxyConfig

open Text

namespace Document

variable {doc : Document} {n k : Nat} {new : Text} {kind : SectionKind}

/-- The document with another line in the place of one of its lines. -/
def withLine (doc : Document) (n : Nat) (new : Text) : Document := ⟨doc.lines.set (n - 1) new⟩

theorem line_withLine_self (first : 1 ≤ n) (last : n ≤ doc.lineCount) :
    (doc.withLine n new).line n = new := by
  rw [lineCount] at last
  rw [line_eq_getD _ first, withLine, List.getD_eq_getElem?_getD,
    List.getElem?_set_self (by omega), Option.getD_some]

theorem line_withLine_of_ne (first : 1 ≤ n) (other : k ≠ n) :
    (doc.withLine n new).line k = doc.line k := by
  cases k with
  | zero => rfl
  | succ k =>
    change (doc.lines.set (n - 1) new).getD k [] = doc.lines.getD k []
    rw [List.getD_eq_getElem?_getD, List.getElem?_set_ne (by omega), List.getD_eq_getElem?_getD]

theorem withLine_withLine (first : 1 ≤ n) (last : n ≤ doc.lineCount) :
    (doc.withLine n new).withLine n (doc.line n) = doc := by
  have short : n - 1 < doc.lines.length := Nat.sub_one_lt_of_le first last
  have here : doc.line n = doc.lines[n - 1] := by
    rw [line_eq_getD doc first, List.getElem_eq_getD]
  rw [withLine, withLine, List.set_set, here, List.set_getElem_self]

section Bodies

variable (first : 1 ≤ n) (old : headerName? (doc.line n) = none) (fresh : headerName? new = none)

include first old fresh

theorem headers_withLine : Section.headers (doc.withLine n new).lines = Section.headers doc.lines := by
  refine Section.headers_congr ?_
  rw [withLine, List.map_set, fresh]
  apply List.ext_getElem?
  intro i
  by_cases here : i = n - 1
  · subst here
    rw [List.getElem?_set_self', List.getElem?_map]
    cases found : doc.lines[n - 1]? with
    | none => rfl
    | some text =>
      rw [line_eq_getD _ first, List.getD_eq_getElem?_getD, found, Option.getD_some] at old
      rw [Option.map_some, old]
      rfl
  · rw [List.getElem?_set_ne (Ne.symm here)]

theorem kindAt?_withLine (k : Nat) : (doc.withLine n new).kindAt? k = doc.kindAt? k := by
  rw [kindAt?_eq, kindAt?_eq, headers_withLine first old fresh]

/-- Another line that holds something is among the lines of its kind as before. -/
theorem mem_linesOf_of_withLine {l : NumberedLine} (other : l.number ≠ n)
    (solid : l.text.allBlank = false) (member : l ∈ (doc.withLine n new).linesOf kind) :
    l ∈ doc.linesOf kind := by
  obtain ⟨known, text, body⟩ := of_mem_linesOf member
  rw [kindAt?_withLine first old fresh] at known
  rw [line_withLine_of_ne first other] at text
  obtain ⟨number, line⟩ := l
  change doc.line number = line at text
  subst text
  exact mem_linesOf_of_kindAt? known body solid

/-- The entries on the other lines are those that were there before. -/
theorem mem_entries_of_withLine {e : Entry} (other : e.line ≠ n)
    (member : e ∈ (doc.withLine n new).entries kind) : e ∈ doc.entries kind := by
  obtain ⟨l, inside, read⟩ := List.mem_filterMap.mp member
  rw [Entry.line_of_parse? read] at other
  exact List.mem_filterMap.mpr
    ⟨l, mem_linesOf_of_withLine first old fresh other (Entry.solid_of_parse? read) inside, read⟩

/-- The entries on the other lines are those of the document. -/
theorem mem_entries_withLine_iff {e : Entry} (last : n ≤ doc.lineCount) (other : e.line ≠ n) :
    e ∈ (doc.withLine n new).entries kind ↔ e ∈ doc.entries kind := by
  refine ⟨mem_entries_of_withLine first old fresh other, fun member => ?_⟩
  -- the line can be put back
  have back : (doc.withLine n new).withLine n (doc.line n) = doc := withLine_withLine first last
  rw [← back] at member
  refine mem_entries_of_withLine first ?_ old other member
  rw [line_withLine_self first last]
  exact fresh

end Bodies

/-- A line with an `=` is an entry of its section. -/
theorem mem_entries_of_kindAt? {e : Entry} (known : doc.kindAt? n = some kind)
    (body : headerName? (doc.line n) = none) (read : Entry.ofLine? n (doc.line n) = some e) :
    e ∈ doc.entries kind :=
  List.mem_filterMap.mpr
    ⟨_, mem_linesOf_of_kindAt? known body (Entry.solid_of_parse? read), read⟩

/-- An edit within a line exchanges that line of the document. -/
theorem parse_edit {s front old back : Text} {r : Range} (fits : FitsLine new)
    (lines : r.LiesOn n) (first : 1 ≤ n) (last : n ≤ (parse s).lineCount)
    (split : (parse s).line n = front ++ (old ++ back)) (start : r.start.column - 1 = front.length)
    (stop : r.stop.column - 1 = front.length + old.length) :
    parse (s.edit r new) = (parse s).withLine n (front ++ (new ++ back)) := by
  have found : s.lines[n - 1]? = some (front ++ (old ++ back)) := by
    have short : n - 1 < s.lines.length := Nat.sub_one_lt_of_le first last
    rw [← split, line_eq_getD _ first]
    exact (List.getElem?_eq_getElem short).trans (congrArg some (List.getElem_eq_getD []))
  have numbers : r.start.line = n - 1 + 1 ∧ r.stop.line = n - 1 + 1 := by
    rw [Nat.sub_add_cancel first]
    exact lines
  rw [parse, lines_edit fits found numbers start stop]
  rfl

end Document

end ProxyConfig

import ProxyConfig.Proofs.Completion.Offers

/-! # The ranges of offers

Every offer replaces a part of the line of the cursor in front of its comment, and an offer in one of
several pieces stays in its piece. What stands between the cursor and the range is blank: a cursor in
the blanks in front of a word is not in the range, and neither is one behind a section name.
-/

namespace ProxyConfig

open Text

namespace Cursor

variable {c : Cursor} {item : CompletionItem} {snippets : Bool}

/-- The part of the line that an edit of the range replaces. -/
def replaced (c : Cursor) (r : Range) : Text :=
  (c.lineText.take (r.stop.column - 1)).drop (r.start.column - 1)

/-- The part of the line between the cursor and a range behind it. -/
def gapBefore (c : Cursor) (r : Range) : Text :=
  (c.lineText.take (r.start.column - 1)).drop (c.column - 1)

/-- The part of the line between a range and the cursor behind it. -/
def gapBehind (c : Cursor) (r : Range) : Text :=
  (c.lineText.take (c.column - 1)).drop (r.stop.column - 1)

/-- The range stands in the line of the cursor, in front of the comment. -/
structure InContent (c : Cursor) (r : Range) : Prop where
  lines : r.LiesOn c.line
  ordered : r.start.column ≤ r.stop.column
  positive : 0 < c.column → 0 < r.start.column
  inside : r.stop.column ≤ c.lineText.length + 1
  visible : '#' ∉ c.lineText.take (r.stop.column - 1)

theorem lineText_eq (c : Cursor) : c.lineText = c.content ++ c.lineText.comment :=
  (uncommented_append_comment c.lineText).symm

theorem take_lineText {n : Nat} (upTo : n ≤ c.content.length) :
    c.lineText.take n = c.content.take n := by
  rw [lineText_eq, List.take_append_of_le_length upTo]

theorem inContent_of_le {r : Range} (lines : r.LiesOn c.line)
    (ordered : r.start.column ≤ r.stop.column) (positive : 0 < c.column → 0 < r.start.column)
    (upTo : r.stop.column - 1 ≤ c.content.length) : c.InContent r where
  lines := lines
  ordered := ordered
  positive := positive
  inside := by
    rw [lineText_eq, List.length_append]
    omega
  visible := by
    rw [take_lineText upTo]
    exact fun found => not_mem_uncommented c.lineText (List.mem_of_mem_take found)

namespace Stretch

theorem inContent (s : c.Stretch) : c.InContent s.range := by
  obtain ⟨lead, old, trail, replaces⟩ := s.exists_replaces
  refine inContent_of_le replaces.lines replaces.ordered replaces.start_pos ?_
  rw [s.split, replaces.split, replaces.stop]
  simp only [List.length_append]
  omega

/-- Only the stretch is replaced. -/
theorem replaced_sublist (s : c.Stretch) : (c.replaced s.range).Sublist s.inside := by
  obtain ⟨lead, old, trail, replaces⟩ := s.exists_replaces
  rw [replaced, s.take_stop replaces, List.drop_left' (by rw [replaces.start, List.length_append]),
    replaces.split]
  exact (List.sublist_append_left old trail).trans (List.sublist_append_right lead _)

/-- The range reaches to the cursor, or the cursor is in the blanks in front of the word. -/
theorem gapBefore_allBlank (s : c.Stretch) : (c.gapBefore s.range).allBlank = true := by
  obtain ⟨lead, old, trail, replaces⟩ := s.exists_replaces
  have starts := s.starts
  rw [gapBefore, s.take_start replaces, List.drop_append, List.drop_of_length_le starts,
    List.nil_append]
  exact allBlank_iff.mpr fun x found =>
    allBlank_iff.mp replaces.leading x (List.mem_of_mem_drop found)

end Stretch

/-! ## Headers -/

/-- Behind the bracket of a header stands a name, and blanks behind it. -/
structure Header (c : Cursor) (lead name trail : Text) : Prop where
  split : c.content = lead ++ '[' :: (name ++ trail)
  trailing : trail.allBlank = true
  behind : lead.length + 2 ≤ c.column
  word : Span.trimmed 1 c.content = ⟨'[' :: name, lead.length + 1⟩

theorem exists_header (short : c.column - 1 ≤ c.content.length) (here : c.context = .header) :
    ∃ lead name trail, c.Header lead name trail := by
  have bracket : c.before.trimStart.head? = some '[' := by
    rw [context] at here
    split at here
    · cases here
    split at here
    · next bracket => exact bracket
    · split at here <;> cases here
  have front : c.before = c.content.take (c.column - 1) := take_lineText short
  obtain ⟨margin, leading, parts⟩ := exists_append_trimStart c.before
  obtain ⟨rest, first⟩ := List.head?_eq_some_iff.mp bracket
  rw [first] at parts
  have whole : c.content = margin ++ '[' :: (rest ++ c.content.drop (c.column - 1)) := by
    rw [← List.cons_append, ← List.append_assoc, ← parts, front, List.take_append_drop]
  have length : c.before.length ≤ c.column - 1 := by
    rw [front]
    exact List.length_take_le ..
  rw [parts, List.length_append, List.length_cons] at length
  obtain ⟨trail, trailing, name⟩ := exists_trimEnd_append (rest ++ c.content.drop (c.column - 1))
  have solid : isBlank '[' = false := by decide
  refine ⟨margin, trimEnd (rest ++ c.content.drop (c.column - 1)), trail, ?_, trailing, by omega, ?_⟩
  · rw [← name]
    exact whole
  · have core : IsTrimmed ('[' :: trimEnd (rest ++ c.content.drop (c.column - 1))) := by
      refine ⟨List.dropWhile_cons_of_neg (Bool.eq_false_iff.mp solid), ?_⟩
      exact (trimEnd_append_cons [] solid _).trans (by rw [trimEnd_trimEnd]; rfl)
    conv_lhs => rw [whole, name, ← List.cons_append]
    rw [Span.trimmed_surround 1 leading core (by simp) trailing, Nat.add_comm]

section Headers

variable {lead name trail : Text}

/-- The offer of a section name replaces all that stands behind the bracket but blanks at the end. -/
theorem Header.range (header : c.Header lead name trail) (member : item ∈ c.headerItems) :
    item.range = .between c.line (lead.length + 2) (lead.length + 2 + name.length) := by
  obtain ⟨kind, -, rfl⟩ := List.mem_map.mp member
  change Range.between c.line ((Span.trimmed 1 c.content).column + 1)
    (max (Span.trimmed 1 c.content).endColumn ((Span.trimmed 1 c.content).column + 1)) = _
  have stop : (Span.mk ('[' :: name) (lead.length + 1)).endColumn = lead.length + 2 + name.length := by
    change lead.length + 1 + (name.length + 1) = _
    omega
  rw [header.word, stop, Nat.max_eq_left (Nat.le_add_right _ _)]

theorem Header.inContent (header : c.Header lead name trail) :
    c.InContent (.between c.line (lead.length + 2) (lead.length + 2 + name.length)) := by
  refine inContent_of_le (Range.liesOn_between ..) (Nat.le_add_right ..) (fun _ => Nat.succ_pos _) ?_
  rw [header.split]
  simp only [Range.between, List.length_append, List.length_cons]
  omega

theorem Header.gapBehind_allBlank (header : c.Header lead name trail)
    (short : c.column - 1 ≤ c.content.length) :
    (c.gapBehind (.between c.line (lead.length + 2) (lead.length + 2 + name.length))).allBlank =
      true := by
  have parts : c.content = (lead ++ '[' :: name) ++ trail := by
    rw [header.split, List.append_assoc, List.cons_append]
  have length : (lead ++ '[' :: name).length = lead.length + 2 + name.length - 1 := by
    rw [List.length_append, List.length_cons]
    omega
  rw [gapBehind, take_lineText short, parts, List.take_append, List.drop_append]
  refine allBlank_iff.mpr fun x found => ?_
  rcases List.mem_append.mp found with found | found
  · have void : ((lead ++ '[' :: name).take (c.column - 1)).length ≤
        lead.length + 2 + name.length - 1 := by
      rw [← length]
      exact List.length_take_le' ..
    rw [Range.between, List.drop_of_length_le void] at found
    cases found
  · exact allBlank_iff.mp header.trailing x (List.mem_of_mem_take (List.mem_of_mem_drop found))

end Headers

/-! ## All offers -/

theorem items_eq_nil_of_lt (behind : c.lineText.length + 1 < c.column) : c.items snippets = [] := by
  rw [items, if_pos behind]

theorem items_eq_nil_of_comment (marked : '#' ∈ c.before) : c.items snippets = [] := by
  rw [items, context, if_pos (List.contains_iff_mem.mpr marked)]
  split <;> rfl

theorem not_lt_of_mem_items (member : item ∈ c.items snippets) :
    ¬ c.lineText.length + 1 < c.column := by
  intro behind
  rw [items_eq_nil_of_lt behind] at member
  cases member

/-- Something is offered only if the cursor is in front of the comment. -/
theorem short_of_mem_items (member : item ∈ c.items snippets) : c.column - 1 ≤ c.content.length := by
  refine le_length_uncommented ?_ fun marked => ?_
  · have inside := not_lt_of_mem_items member
    omega
  · rw [items_eq_nil_of_comment marked] at member
    cases member

theorem mem_headerItems (member : item ∈ c.items snippets) (here : c.context = .header) :
    item ∈ c.headerItems := by
  rw [items, here] at member
  split at member
  · cases member
  · exact member

/-- Whether the offer is for the key of a setting, which is not cut into pieces. -/
def OffersSettingKey (c : Cursor) (item : CompletionItem) : Prop :=
  c.context = .body .general ∧ item.kind = .property

/-- Outside of headers every offer is for a stretch of the line. -/
theorem exists_stretch_of_mem_items (member : item ∈ c.items snippets) (body : c.context ≠ .header) :
    ∃ s : c.Stretch, item.range = s.range ∧ (c.OffersSettingKey item ∨ ',' ∉ s.inside) := by
  have short := short_of_mem_items member
  have declared {T K : Type} [Keyword T] [Keyword K] {rules : T → PropertyRules K}
      {kindOf : T → Entry → Option ValueKind} {items : List CompletionItem}
      (offers : c.OffersDeclaration rules kindOf items item) :
      ∃ s : c.Stretch, item.range = s.range ∧ (c.OffersSettingKey item ∨ ',' ∉ s.inside) := by
    cases offers with
    | type _ a _ range => exact ⟨a.stretch, range, .inr a.comma_not_mem⟩
    | argument _ a _ _ _ _ _ offers =>
      cases offers with
      | key s _ slot offered =>
        exact ⟨s, CompletionItem.range_of_mem_propertyKeys offered, .inr slot.comma_not_mem⟩
      | value s _ _ slot _ _ offered =>
        exact ⟨s, CompletionItem.range_of_mem_values offered, .inr slot.comma_not_mem⟩
      | actor s slot offered =>
        exact ⟨s, CompletionItem.range_of_mem_actors offered, .inr slot.comma_not_mem⟩
  rw [items] at member
  split at member
  · cases member
  split at member
  · next here => exact absurd here body
  · next here =>
    obtain ⟨key, s, offers⟩ | ⟨key, a, -, range⟩ := mem_settingItems_cases short member
    · exact ⟨s, offers.range, .inl ⟨here, offers.kind⟩⟩
    · exact ⟨a.stretch, range, .inr a.comma_not_mem⟩
  · exact declared (offersDeclaration_of_mem_proxyItems short member)
  · exact declared (offersDeclaration_of_mem_groupItems short member)
  · cases offersRule_of_mem_ruleItems short member with
    | type a _ range => exact ⟨a.stretch, range, .inr a.comma_not_mem⟩
    | matcher a _ range => exact ⟨a.stretch, range, .inr a.comma_not_mem⟩
    | target a _ _ _ offered =>
      exact ⟨a.stretch, CompletionItem.range_of_mem_actors offered, .inr a.comma_not_mem⟩
  · cases member

theorem inContent_of_mem_items (member : item ∈ c.items snippets) : c.InContent item.range := by
  by_cases here : c.context = .header
  · obtain ⟨lead, name, trail, header⟩ := exists_header (short_of_mem_items member) here
    rw [header.range (mem_headerItems member here)]
    exact header.inContent
  · obtain ⟨s, range, -⟩ := exists_stretch_of_mem_items member here
    rw [range]
    exact s.inContent

/-- Offers stay in their line: their ranges are in front of the comment, and but for headers and the
keys of settings no comma is replaced. A cursor behind the end of its line or in a comment has none. -/
theorem items_stay_in_content (c : Cursor) (snippets : Bool) :
    (∀ item ∈ c.items snippets, c.InContent item.range ∧
      (c.context ≠ .header → ¬ c.OffersSettingKey item → ',' ∉ c.replaced item.range)) ∧
    (c.lineText.length + 1 < c.column → c.items snippets = []) ∧
    ('#' ∈ c.before → c.items snippets = []) := by
  refine ⟨fun item member => ⟨inContent_of_mem_items member, fun body piece => ?_⟩,
    items_eq_nil_of_lt, items_eq_nil_of_comment⟩
  obtain ⟨s, range, single⟩ := exists_stretch_of_mem_items member body
  rw [range]
  exact fun found => (single.resolve_left piece) (s.replaced_sublist.mem found)

/-- The word before a blank, a comma and a comment. -/
theorem items_stay_in_content_transport :
    let c : Cursor := ⟨.parse "[Rule]\nNETWORK, T , a # TCP".toList, ⟨2, 11⟩⟩
    ∃ item ∈ c.items true, item.newText = "TCP" ∧ c.InContent item.range ∧
      c.replaced item.range = ['T'] ∧ ',' ∉ c.replaced item.range := by
  intro c
  let item : CompletionItem :=
    { label := "TCP", kind := .value, range := ⟨⟨2, 10⟩, ⟨2, 11⟩⟩, newText := "TCP" }
  have member : item ∈ c.items true := by decide +kernel
  have body : c.context ≠ .header := by decide +kernel
  have value : ¬ c.OffersSettingKey item := fun offers => nomatch offers.2
  obtain ⟨inside, single⟩ := (c.items_stay_in_content true).1 item member
  exact ⟨item, member, rfl, inside, by decide +kernel, single body value⟩

/-! ## The cursor and the range -/

/-- The range reaches to the cursor, unless the cursor is behind a section name. -/
theorem column_le_stop (member : item ∈ c.items snippets) (body : c.context ≠ .header) :
    c.column ≤ item.range.stop.column := by
  obtain ⟨s, range, -⟩ := exists_stretch_of_mem_items member body
  obtain ⟨lead, old, trail, replaces⟩ := s.exists_replaces
  rw [range]
  exact replaces.reaches

/-- A section name starts in front of the cursor. -/
theorem start_le_column (member : item ∈ c.items snippets) (here : c.context = .header) :
    item.range.start.column ≤ c.column := by
  obtain ⟨lead, name, trail, header⟩ := exists_header (short_of_mem_items member) here
  rw [header.range (mem_headerItems member here)]
  exact header.behind

theorem gapBefore_of_le {r : Range} (upTo : r.start.column ≤ c.column) : c.gapBefore r = [] :=
  List.drop_of_length_le ((List.length_take_le ..).trans (Nat.sub_le_sub_right upTo 1))

theorem gapBehind_of_le {r : Range} (upTo : c.column ≤ r.stop.column) : c.gapBehind r = [] :=
  List.drop_of_length_le ((List.length_take_le ..).trans (Nat.sub_le_sub_right upTo 1))

/-- Nothing but blanks stands between the cursor and the range of an offer. -/
theorem gaps_allBlank (member : item ∈ c.items snippets) :
    (c.gapBefore item.range).allBlank = true ∧ (c.gapBehind item.range).allBlank = true := by
  by_cases here : c.context = .header
  · have short := short_of_mem_items member
    obtain ⟨lead, name, trail, header⟩ := exists_header short here
    rw [gapBefore_of_le (start_le_column member here), header.range (mem_headerItems member here)]
    exact ⟨rfl, header.gapBehind_allBlank short⟩
  · rw [gapBehind_of_le (column_le_stop member here)]
    obtain ⟨s, range, -⟩ := exists_stretch_of_mem_items member here
    rw [range]
    exact ⟨s.gapBefore_allBlank, rfl⟩

/-- A cursor with no blank at it is not in front of the range. -/
theorem start_le_column_of_solid (member : item ∈ c.items snippets) (real : 0 < c.column)
    (solid : ∀ x, c.lineText[c.column - 1]? = some x → isBlank x = false) :
    item.range.start.column ≤ c.column := by
  by_contra ahead
  have ordered := (inContent_of_mem_items member).ordered
  have inside := (inContent_of_mem_items member).inside
  obtain ⟨x, found⟩ : ∃ x, c.lineText[c.column - 1]? = some x :=
    ⟨_, List.getElem?_eq_getElem (by omega)⟩
  have gap : x ∈ c.gapBefore item.range := by
    refine List.mem_of_getElem? (i := 0) ?_
    rw [gapBefore, List.getElem?_drop, List.getElem?_take_of_lt (by omega)]
    exact found
  have blank := allBlank_iff.mp (gaps_allBlank member).1 x gap
  rw [solid x found] at blank
  cases blank

/-- A cursor with no blank in front of it is not behind the range. -/
theorem column_le_stop_of_solid (member : item ∈ c.items snippets) (real : 0 < c.column)
    (solid : ∀ x, c.before.getLast? = some x → isBlank x = false) :
    c.column ≤ item.range.stop.column := by
  by_contra behind
  have placed := inContent_of_mem_items member
  have start := placed.positive real
  have ordered := placed.ordered
  have length : c.before.length = c.column - 1 := by
    rw [before, take_lineText (short_of_mem_items member)]
    exact List.length_take_of_le (short_of_mem_items member)
  have last : c.before.getLast? = (c.gapBehind item.range).getLast? := by
    change _ = (c.before.drop _).getLast?
    rw [List.getLast?_drop, if_neg (by omega)]
  cases found : (c.gapBehind item.range).getLast? with
  | none =>
    rw [found, List.getLast?_eq_none_iff] at last
    rw [last] at length
    change 0 = c.column - 1 at length
    omega
  | some x =>
    have blank := allBlank_iff.mp (gaps_allBlank member).2 x (List.mem_of_getLast? found)
    rw [solid x (last.trans found)] at blank
    cases blank

end Cursor

namespace ClientView

/-- The ranges of all offers reach to the client's cursor but for blanks: only in the blanks in front of
a word, or behind a section name, can the cursor be outside of the range. -/
theorem completions_reach_cursor (view : ClientView) (p : ClientPosition) (snippets : Bool)
    {item : CompletionItem} (member : item ∈ view.completions p snippets) :
    let c : Cursor := ⟨view.doc, view.position p⟩
    item.range.LiesOn c.line ∧
    (c.context ≠ .header → c.column ≤ item.range.stop.column) ∧
    (c.context = .header → item.range.start.column ≤ c.column) ∧
    (c.gapBefore item.range).allBlank = true ∧ (c.gapBehind item.range).allBlank = true ∧
    ((∀ x, c.lineText[c.column - 1]? = some x → isBlank x = false) →
      (c.context = .header → ∀ x, c.before.getLast? = some x → isBlank x = false) →
        item.range.touches c.position = true) := by
  intro c
  have real : 0 < c.column := Nat.succ_pos _
  have lines : item.range.LiesOn c.line := (Cursor.inContent_of_mem_items member).lines
  obtain ⟨before, behind⟩ := Cursor.gaps_allBlank member
  refine ⟨lines, Cursor.column_le_stop member, Cursor.start_le_column member, before, behind,
    fun solidAt solidBefore => ?_⟩
  have start := Cursor.start_le_column_of_solid member real solidAt
  have stop : c.column ≤ item.range.stop.column := by
    by_cases here : c.context = .header
    · exact Cursor.column_le_stop_of_solid member real (solidBefore here)
    · exact Cursor.column_le_stop member here
  have startLine : item.range.start.line = c.position.line := lines.1
  have stopLine : item.range.stop.line = c.position.line := lines.2
  rw [Range.touches, Position.upTo, Position.upTo, startLine, stopLine]
  simpa using ⟨start, stop⟩

/-- A cursor right behind the first letter of a matcher. -/
theorem completions_reach_cursor_matcher :
    let view : ClientView := ⟨.parse "[Rule]\nNETWORK, TC , a".toList, .utf32⟩
    ∃ item ∈ view.completions ⟨1, 10⟩ true, item.range = ⟨⟨2, 10⟩, ⟨2, 12⟩⟩ ∧
      item.range.touches (view.position ⟨1, 10⟩) = true := by
  intro view
  let item : CompletionItem :=
    { label := "TCP", kind := .value, range := ⟨⟨2, 10⟩, ⟨2, 12⟩⟩, newText := "TCP" }
  have member : item ∈ view.completions ⟨1, 10⟩ true := by decide +kernel
  let c : Cursor := ⟨view.doc, view.position ⟨1, 10⟩⟩
  have letter : c.lineText[c.column - 1]? = some 'C' := by decide +kernel
  have solid : ∀ x, c.lineText[c.column - 1]? = some x → isBlank x = false := by
    intro x found
    rw [letter] at found
    cases found
    rfl
  have body : c.context ≠ .header := by decide +kernel
  obtain ⟨-, -, -, -, -, contains⟩ := view.completions_reach_cursor ⟨1, 10⟩ true member
  exact ⟨item, member, rfl, contains solid fun header => absurd header body⟩

/-- A range need not hold the cursor: here that is in the blanks in front of a matcher. -/
theorem completions_miss_cursor :
    ¬ ∀ (view : ClientView) (p : ClientPosition) (snippets : Bool),
      ∀ item ∈ view.completions p snippets,
        item.range.LiesOn (view.position p).line ∧ item.range.touches (view.position p) = true := by
  intro holds
  have all := holds ⟨.parse "[Rule]\nNETWORK,  TC, a".toList, .utf32⟩ ⟨1, 8⟩ true
  exact absurd all (by decide +kernel)

end ClientView

end ProxyConfig

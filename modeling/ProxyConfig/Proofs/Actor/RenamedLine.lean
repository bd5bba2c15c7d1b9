import ProxyConfig.Proofs.Actor.Sites
import ProxyConfig.Proofs.Text.Respell

/-! # What a rename makes of a line

The edits of a rename are given by columns. On a line of an actor or rule section they come to
exchanging the old name where the line is cut: in the key, in the arguments behind the type, in the
value of a `last-resort`, or in the target of a rule. `replaceFrom_sites` states that both are the
same, and the rest of the development follows the cuts.
-/

namespace ProxyConfig

open Text

/-- An argument of a group behind its type, with the old name exchanged. -/
def renamedArgument (old new s : Text) : Text :=
  match cut? '=' s with
  | none => recore old new s
  | some (key, value) =>
    if (Keyword.parse? key.trim : Option GroupProperty) = some .lastResort then
      key ++ '=' :: recore old new value
    else s

/-- The value of a group with the old name exchanged in its arguments. -/
def renamedArguments (old new s : Text) : Text :=
  (cutAll ',' s).1 ++ (cutAll ',' s).2.flatMap fun t => ',' :: renamedArgument old new t

/-- The number of the target among the pieces of a rule behind its type. -/
def targetOffset (type : Text) : Nat :=
  if (Keyword.parse? type : Option RuleType) = some .final then 0 else 1

/-- A rule with the old name exchanged in its target. -/
def renamedRule (old new s : Text) : Text :=
  (cutAll ',' s).1 ++
    ((cutAll ',' s).2.modify (targetOffset (cutAll ',' s).1.trim) (recore old new)).flatMap (',' :: ·)

/-- A declaration with the old name exchanged in its key, and by `f` in its value. -/
def renamedEntry (old new : Text) (f : Text → Text) (s : Text) : Text :=
  match cut? '=' s.uncommented with
  | none => s
  | some (key, value) => recore old new key ++ '=' :: (f value ++ s.comment)

/-- A line of a section of the given kind with the old name exchanged at its sites. -/
def renamedLine (kind? : Option SectionKind) (old new s : Text) : Text :=
  match kind? with
  | some .proxy => renamedEntry old new id s
  | some .proxyGroup => renamedEntry old new (renamedArguments old new) s
  | some .rule => renamedRule old new s.uncommented ++ s.comment
  | _ => s

theorem NumberedLine.pieces_eq (l : NumberedLine) :
    l.pieces = ⟨.trimmed 1 (cutAll ',' l.text.uncommented).1,
      Pieces.place (1 + (cutAll ',' l.text.uncommented).1.length + 1)
        (cutAll ',' l.text.uncommented).2⟩ := Pieces.read_eq 1 l.text.uncommented

theorem ruleTarget?_eq (p : Pieces) : ruleTarget? p = p.others[targetOffset p.first.text]? := by
  rw [ruleTarget?, targetOffset]
  split
  · next target rest final others => rw [if_pos final, others]; rfl
  · next other =>
    split
    · next final =>
      cases others : p.others with
      | nil => rw [Pieces.piece?, Pieces.toList, others]; rfl
      | cons target rest => exact absurd others (other target rest final)
    · rfl

section Columns

variable {old new : Text} {line : Nat}

/-- Sites before or behind some columns of their line are clear of them. -/
theorem clear_of_within {sites : List NameSite} {first last : Nat} (solid : old ≠ [])
    (within : ∀ x ∈ sites, ∃ a b, x.Within line old a b ∧ (last ≤ a ∨ b ≤ first)) :
    Clear (sites.map (·.range)) line first last := by
  intro r member
  obtain ⟨x, inside, rfl⟩ := List.mem_map.mp member
  obtain ⟨a, b, ⟨span, role, rfl, text, starts, ends⟩, apart⟩ := within x inside
  have long : 0 < span.length := List.length_pos_of_ne_nil (text ▸ solid)
  rw [Span.endColumn] at ends
  exact clear_onLine long (apart.imp (fun before => by omega) fun behind => by omega) _
    (List.mem_singleton_self _)

/-- The range of a piece is clear of what stands before and behind the piece. -/
theorem clear_trimmed (solid : old ≠ []) {column first last : Nat} {s : Text}
    (apart : last ≤ column ∨ column + s.length ≤ first) :
    Clear (if (Span.trimmed column s).text = old then [(Span.trimmed column s).range line] else [])
      line first last := by
  have starts := Span.le_column_trimmed column s
  have ends := Span.endColumn_trimmed_le column s
  rw [Span.endColumn] at ends
  split
  · next text =>
    have long : 0 < (Span.trimmed column s).length := List.length_pos_of_ne_nil (text ▸ solid)
    exact clear_onLine long (by omega)
  · exact fun r member => absurd member List.not_mem_nil

theorem replaceFrom_append_trimmed (new : Text) (solid : old ≠ []) (line column : Nat)
    {lead s : Text} (flatLead : '\n' ∉ lead) (flat : '\n' ∉ s) :
    replaceFrom (if (Span.trimmed (column + lead.length) s).text = old then
        [(Span.trimmed (column + lead.length) s).range line] else []) new ⟨line, column⟩ (lead ++ s) =
      lead ++ recore old new s := by
  rw [replaceFrom_append flatLead, replaceFrom_trimmed new solid flat,
    replaceFrom_of_clear flatLead (clear_trimmed solid (.inl (Nat.le_refl _)))]

/-- The sites in an argument exchange what `renamedArgument` does. -/
theorem replaceFrom_argument (new : Text) (solid : old ≠ []) {e : Entry} {s : Text} (clean : '#' ∉ s)
    (flat : '\n' ∉ s) (column : Nat) :
    replaceFrom ((e.referenceSites old (.trimmed column s)).map (·.range)) new ⟨e.line, column⟩ s =
      renamedArgument old new s := by
  rw [renamedArgument, Entry.referenceSites]
  cases found : cut? '=' s with
  | none =>
    rw [Span.property?_of_not_mem _ _ (cut?_eq_none_iff.mp found)]
    dsimp only
    rw [← replaceFrom_trimmed new solid flat e.line column]
    congr 1
    split <;> rfl
  | some halves =>
    obtain ⟨key, value⟩ := halves
    obtain ⟨rfl, keyed⟩ := cut?_eq_some_iff.mp found
    obtain ⟨property, read, -, text, place⟩ := Span.exists_property? e.line column clean keyed
    rw [read]
    dsimp only
    rw [Entry.lastResort?, text, place]
    by_cases resort : (Keyword.parse? key.trim : Option GroupProperty) = some .lastResort
    · rw [if_pos resort, if_pos resort]
      have front : key ++ '=' :: value = (key ++ ['=']) ++ value := by
        rw [List.append_assoc, List.singleton_append]
      rw [front, List.mem_append, not_or] at flat
      have whole := replaceFrom_append_trimmed new solid e.line column flat.1 flat.2
      rw [← front, List.length_append, List.length_singleton, ← Nat.add_assoc,
        List.append_assoc, List.singleton_append] at whole
      rw [← whole]
      congr 1
      dsimp only
      split <;> rfl
    · rw [if_neg resort, if_neg resort]
      exact replaceFrom_of_clear flat fun r member => absurd member List.not_mem_nil

/-- The sites in the arguments behind a comma each exchange what stands there. -/
theorem replaceFrom_arguments (new : Text) (solid : old ≠ []) {e : Entry} {texts : List Text}
    (clean : ∀ t ∈ texts, '#' ∉ t) (flat : ∀ t ∈ texts, '\n' ∉ t) (column : Nat) :
    replaceFrom (((Pieces.place (column + 1) texts).flatMap (e.referenceSites old)).map (·.range)) new
        ⟨e.line, column⟩ (texts.flatMap (',' :: ·)) =
      texts.flatMap fun t => ',' :: renamedArgument old new t := by
  induction texts generalizing column with
  | nil => rfl
  | cons t rest ih =>
    have cleanHere := clean t (List.mem_cons_self ..)
    have flatHere := flat t (List.mem_cons_self ..)
    have flatFront : '\n' ∉ ',' :: t := by simp [flatHere]
    have tail := ih (fun u member => clean u (List.mem_cons_of_mem _ member))
      (fun u member => flat u (List.mem_cons_of_mem _ member)) (column + (',' :: t).length)
    have here : ∀ x ∈ e.referenceSites old (.trimmed (column + 1) t),
        x.Within e.line old (column + 1) (column + 1 + t.length) := fun x member =>
      (Entry.within_of_mem_referenceSites member).mono (Span.le_column_trimmed _ t)
        (Span.endColumn_trimmed_le _ t)
    have behind : ∀ x ∈ (Pieces.place (column + 1 + t.length + 1) rest).flatMap (e.referenceSites old),
        ∃ b, x.Within e.line old (column + 1 + t.length + 1) b := by
      intro x member
      obtain ⟨a, listed, found⟩ := List.mem_flatMap.mp member
      exact ⟨a.endColumn, (Entry.within_of_mem_referenceSites found).mono
        (Pieces.le_column_of_mem_place listed) (Nat.le_refl _)⟩
    have first : replaceFrom ((e.referenceSites old (.trimmed (column + 1) t)).map (·.range)) new
        ⟨e.line, column⟩ (',' :: t) = ',' :: renamedArgument old new t := by
      have comma : '\n' ∉ [','] := by decide
      have single : ',' :: t = [','] ++ t := rfl
      rw [single, replaceFrom_append comma, List.length_singleton,
        replaceFrom_argument new solid cleanHere flatHere, replaceFrom_of_clear comma]
      · rfl
      · exact clear_of_within solid fun x member => ⟨_, _, here x member, .inl (Nat.le_refl _)⟩
    have index : column + (',' :: t).length + 1 = column + 1 + t.length + 1 := by
      rw [List.length_cons]
      omega
    rw [index] at tail
    rw [List.flatMap_cons, List.flatMap_cons, Pieces.place, List.flatMap_cons, List.map_append,
      replaceFrom_append flatFront, replaceFrom_append_clear flatFront, first]
    · have flatRest : '\n' ∉ rest.flatMap (',' :: ·) :=
        not_mem_join (by decide) fun u member => flat u (List.mem_cons_of_mem _ member)
      rw [replaceFrom_clear_append flatRest, tail]
      refine clear_of_within solid fun x member => ⟨_, _, here x member, .inr ?_⟩
      rw [List.length_cons]
      omega
    · refine clear_of_within solid fun x member => ?_
      obtain ⟨b, within⟩ := behind x member
      refine ⟨_, b, within, .inl ?_⟩
      rw [List.length_cons]
      omega

/-- The site in the target exchanges what stands there. -/
theorem replaceFrom_target (new : Text) (solid : old ≠ []) {texts : List Text} (flat : ∀ t ∈ texts, '\n' ∉ t)
    (line column j : Nat) :
    replaceFrom ((((Pieces.place (column + 1) texts)[j]?.filter fun a => a.text == old).map
        fun a => a.range line).toList) new ⟨line, column⟩ (texts.flatMap (',' :: ·)) =
      (texts.modify j (recore old new)).flatMap (',' :: ·) := by
  induction texts generalizing column j with
  | nil =>
    rw [List.modify_nil]
    rfl
  | cons t rest ih =>
    have flatHere := flat t (List.mem_cons_self ..)
    have flatFront : '\n' ∉ ',' :: t := by simp [flatHere]
    have flatRest : '\n' ∉ rest.flatMap (',' :: ·) :=
      not_mem_join (by decide) fun u member => flat u (List.mem_cons_of_mem _ member)
    rw [Pieces.place, List.flatMap_cons, replaceFrom_append flatFront]
    cases j with
    | zero =>
      have ranges : (((Span.trimmed (column + 1) t :: Pieces.place (column + 1 + t.length + 1) rest)[0]?.filter
          fun a => a.text == old).map fun a => a.range line).toList =
            if (Span.trimmed (column + 1) t).text = old then [(Span.trimmed (column + 1) t).range line]
            else [] := by
        rw [List.getElem?_cons_zero, Option.filter_some]
        by_cases same : (Span.trimmed (column + 1) t).text = old
        · rw [if_pos (beq_iff_eq.mpr same), if_pos same]
          rfl
        · rw [if_neg (fun equal => same (eq_of_beq equal)), if_neg same]
          rfl
      have comma : '\n' ∉ [','] := by decide
      have first := replaceFrom_append_trimmed new solid line column comma flatHere
      rw [List.length_singleton, List.singleton_append, List.singleton_append] at first
      rw [ranges, first, replaceFrom_of_clear flatRest, List.modify_zero_cons, List.flatMap_cons]
      exact clear_trimmed solid (.inr (by rw [List.length_cons]; omega))
    | succ j =>
      have tail := ih (fun u member => flat u (List.mem_cons_of_mem _ member))
        (column + (',' :: t).length) j
      have index : column + (',' :: t).length + 1 = column + 1 + t.length + 1 := by
        rw [List.length_cons]
        omega
      rw [index] at tail
      rw [List.getElem?_cons_succ, tail, replaceFrom_of_clear flatFront, List.modify_succ_cons,
        List.flatMap_cons]
      intro r member
      rw [Option.mem_toList, Option.map_eq_some_iff] at member
      obtain ⟨a, selected, rfl⟩ := member
      obtain ⟨found, same⟩ := Option.filter_eq_some_iff.mp selected
      have starts := Pieces.le_column_of_mem_place (List.mem_of_getElem? found)
      have long : 0 < a.length := List.length_pos_of_ne_nil (eq_of_beq same ▸ solid)
      refine clear_onLine long (.inl ?_) _ (List.mem_singleton_self _)
      rw [List.length_cons]
      omega

/-- The range of the key exchanges the key, and the others what they do in the value. -/
theorem replaceFrom_entry (new : Text) (solid : old ≠ []) {key value comment : Text}
    (flat : '\n' ∉ key ++ '=' :: (value ++ comment)) {others : List Range}
    (before : Clear others line 1 (1 + key.length + 1))
    (after : ∀ last, Clear others line (1 + key.length + 1 + value.length) last) :
    replaceFrom ((if (Span.trimmed 1 key).text = old then [(Span.trimmed 1 key).range line] else [])
        ++ others) new ⟨line, 1⟩ (key ++ '=' :: (value ++ comment)) =
      recore old new key
        ++ '=' :: (replaceFrom others new ⟨line, 1 + key.length + 1⟩ value ++ comment) := by
  have single : key ++ '=' :: (value ++ comment) = key ++ (['='] ++ (value ++ comment)) := rfl
  rw [single] at flat ⊢
  simp only [List.mem_append, not_or] at flat
  obtain ⟨flatKey, flatMark, flatValue, flatComment⟩ := flat
  have keyed {first last : Nat} (behind : 1 + key.length ≤ first) :
      Clear (if (Span.trimmed 1 key).text = old then [(Span.trimmed 1 key).range line] else [])
        line first last :=
    clear_trimmed solid (.inr behind)
  have length : ([] ++ ['=']).length = 1 := rfl
  rw [replaceFrom_append flatKey, replaceFrom_append flatMark, replaceFrom_append flatValue,
    replaceFrom_append_clear flatKey (before.mono (Nat.le_refl _) (Nat.le_succ _)),
    replaceFrom_trimmed new solid flatKey, List.length_singleton,
    replaceFrom_of_clear flatMark
      ((keyed (Nat.le_refl _)).append (before.mono (Nat.le_add_right _ _) (Nat.le_refl _))),
    replaceFrom_clear_append flatValue (keyed (Nat.le_succ _)),
    replaceFrom_of_clear flatComment ((keyed (by omega)).append (after _))]
  rfl

/-- The sites in the value of a group exchange what `renamedArguments` does. -/
theorem replaceFrom_others (new : Text) (solid : old ≠ []) {key : Span} {column : Nat} {value : Text}
    (clean : '#' ∉ value) (flat : '\n' ∉ value) :
    replaceFrom (((Entry.arguments ⟨line, key, .trimmed column value⟩).others.flatMap
        (Entry.referenceSites ⟨line, key, .trimmed column value⟩ old)).map (·.range)) new
        ⟨line, column⟩ value = renamedArguments old new value := by
  have split := append_cutAll ',' value
  obtain ⟨flatFirst, flatRest⟩ := not_mem_cutAll ',' flat
  have places : (Entry.arguments ⟨line, key, .trimmed column value⟩).others =
      Pieces.place (column + (cutAll ',' value).1.length + 1) (cutAll ',' value).2 := by
    rw [Entry.others_arguments, Pieces.read_eq]
  have starts : Clear (((Pieces.place (column + (cutAll ',' value).1.length + 1)
      (cutAll ',' value).2).flatMap (Entry.referenceSites ⟨line, key, .trimmed column value⟩ old)).map
        (·.range)) line column (column + (cutAll ',' value).1.length) := by
    refine clear_of_within solid fun x member => ?_
    obtain ⟨a, listed, found⟩ := List.mem_flatMap.mp member
    exact ⟨a.column, a.endColumn, Entry.within_of_mem_referenceSites found,
      .inl (Nat.le_of_lt (Pieces.le_column_of_mem_place listed))⟩
  have tail := replaceFrom_arguments new solid (e := ⟨line, key, .trimmed column value⟩)
    (not_mem_cutAll ',' clean).2 flatRest (column + (cutAll ',' value).1.length)
  rw [places, renamedArguments]
  generalize Entry.referenceSites ⟨line, key, .trimmed column value⟩ old = references at starts tail ⊢
  conv_lhs =>
    arg 4
    rw [← split]
  rw [replaceFrom_append flatFirst, replaceFrom_of_clear flatFirst starts, tail]

/-- The site of the target of a rule exchanges what `renamedRule` does. -/
theorem replaceFrom_rule (new : Text) (solid : old ≠ []) (l : NumberedLine)
    (flat : '\n' ∉ l.text.uncommented) (flatComment : '\n' ∉ l.text.comment) :
    replaceFrom ((((ruleTarget? l.pieces).filter fun target => target.text == old).map
        fun target => target.site l.number .ruleTarget).toList.map (·.range)) new ⟨l.number, 1⟩ l.text =
      renamedRule old new l.text.uncommented ++ l.text.comment := by
  have split := append_cutAll ',' l.text.uncommented
  have whole := uncommented_append_comment l.text
  have pieces := l.pieces_eq
  have ranges (target? : Option Span) : ((target?.filter fun target => target.text == old).map
      fun target => target.site l.number .ruleTarget).toList.map (·.range) =
        ((target?.filter fun target => target.text == old).map
          fun target => target.range l.number).toList := by
    cases target?.filter fun target => target.text == old <;> rfl
  have bounds : ∀ a ∈ l.pieces.others, 1 + (cutAll ',' l.text.uncommented).1.length ≤ a.column ∧
      a.endColumn ≤ 1 + l.text.uncommented.length := by
    intro a member
    have listed : a ∈ l.pieces.toList := List.mem_cons_of_mem _ member
    refine ⟨?_, Pieces.endColumn_le_of_mem_read listed⟩
    rw [pieces] at member
    exact Nat.le_of_lt (Pieces.le_column_of_mem_place member)
  have clear {first last : Nat} (apart : last ≤ 1 + (cutAll ',' l.text.uncommented).1.length ∨
      1 + l.text.uncommented.length ≤ first) :
      Clear ((((ruleTarget? l.pieces).filter fun target => target.text == old).map
        fun target => target.range l.number).toList) l.number first last := by
    intro r member
    rw [Option.mem_toList, Option.map_eq_some_iff] at member
    obtain ⟨target, selected, rfl⟩ := member
    obtain ⟨found, same⟩ := Option.filter_eq_some_iff.mp selected
    rw [ruleTarget?_eq] at found
    obtain ⟨starts, ends⟩ := bounds target (List.mem_of_getElem? found)
    have long : 0 < target.length := List.length_pos_of_ne_nil (eq_of_beq same ▸ solid)
    rw [Span.endColumn] at ends
    exact clear_onLine long (by omega) _ (List.mem_singleton_self _)
  obtain ⟨flatFirst, flatRest⟩ := not_mem_cutAll ',' flat
  have content : replaceFrom ((((ruleTarget? l.pieces).filter fun target => target.text == old).map
      fun target => target.range l.number).toList) new ⟨l.number, 1⟩ l.text.uncommented =
        renamedRule old new l.text.uncommented := by
    conv_lhs =>
      arg 4
      rw [← split]
    rw [replaceFrom_append flatFirst, replaceFrom_of_clear flatFirst (clear (.inl (Nat.le_refl _))),
      ruleTarget?_eq, pieces]
    dsimp only
    rw [Span.text_trimmed, replaceFrom_target new solid flatRest, renamedRule]
  rw [ranges]
  conv_lhs =>
    arg 4
    rw [← whole]
  rw [replaceFrom_append flat, content,
    replaceFrom_of_clear flatComment (clear (.inr (Nat.le_refl _)))]

section Declarations

variable {key value comment : Text}

theorem Entry.map_range_declarationSites (e : Entry) (kind : ActorKind) (name : Text) :
    (e.declarationSites kind name).map (·.range) =
      if e.key.text = name then [e.key.range e.line] else [] := by
  rw [declarationSites]
  split <;> rfl

/-- The site of a proxy exchanges its name. -/
theorem replaceFrom_proxy (new : Text) (solid : old ≠ []) (line : Nat)
    (flat : '\n' ∉ key ++ '=' :: (value ++ comment)) :
    replaceFrom ((Entry.declarationSites ⟨line, .trimmed 1 key, .trimmed (1 + key.length + 1) value⟩
        .proxy old).map (·.range)) new ⟨line, 1⟩ (key ++ '=' :: (value ++ comment)) =
      recore old new key ++ '=' :: (value ++ comment) := by
  have flatValue : '\n' ∉ value := fun member => flat (by simp [member])
  have nothing {first last : Nat} : Clear [] line first last :=
    fun r member => absurd member List.not_mem_nil
  have exchanged := replaceFrom_entry new solid flat nothing fun _ => nothing
  rwa [replaceFrom_of_clear flatValue nothing, List.append_nil,
    ← Entry.map_range_declarationSites ⟨line, .trimmed 1 key, .trimmed (1 + key.length + 1) value⟩
      .proxy] at exchanged

/-- The sites of a group exchange its name and those in its arguments. -/
theorem replaceFrom_group (new : Text) (solid : old ≠ []) (line : Nat) (clean : '#' ∉ value)
    (flat : '\n' ∉ key ++ '=' :: (value ++ comment)) {e : Entry}
    (read : e = ⟨line, .trimmed 1 key, .trimmed (1 + key.length + 1) value⟩) :
    replaceFrom ((e.declarationSites .group old ++
        e.arguments.others.flatMap (e.referenceSites old)).map (·.range)) new ⟨line, 1⟩
        (key ++ '=' :: (value ++ comment)) =
      recore old new key ++ '=' :: (renamedArguments old new value ++ comment) := by
  subst read
  have flatValue : '\n' ∉ value := fun member => flat (by simp [member])
  have starts := Span.le_column_trimmed (1 + key.length + 1) value
  have ends := Span.endColumn_trimmed_le (1 + key.length + 1) value
  have exchanged := replaceFrom_entry new solid flat
    (clear_of_within solid fun x member =>
      ⟨_, _, Entry.within_of_mem_others_sites (e := ⟨line, .trimmed 1 key,
        .trimmed (1 + key.length + 1) value⟩) member, .inl starts⟩)
    fun last => clear_of_within solid fun x member =>
      ⟨_, _, Entry.within_of_mem_others_sites member, .inr ends⟩
  rw [replaceFrom_others new solid clean flatValue] at exchanged
  rw [List.map_append, Entry.map_range_declarationSites]
  exact exchanged

end Declarations

/-- The sites of the old name on a line exchange what `renamedLine` does. -/
theorem replaceFrom_sites (named : IsName old) (l : NumberedLine) (flat : '\n' ∉ l.text)
    (kind? : Option SectionKind) :
    replaceFrom ((l.sites kind? old true).map (·.range)) new ⟨l.number, 1⟩ l.text =
      renamedLine kind? old new l.text := by
  have untouched : replaceFrom [] new ⟨l.number, 1⟩ l.text = l.text :=
    replaceFrom_of_clear flat fun r member => absurd member List.not_mem_nil
  have read := Entry.parse?_eq l.number 1 l.text
  unfold NumberedLine.sites renamedLine
  cases kind? with
  | none => exact untouched
  | some kind =>
    cases kind with
    | proxy =>
      dsimp only
      rw [renamedEntry, NumberedLine.rawEntry?, Entry.ofLine?, read]
      cases found : cut? '=' l.text.uncommented with
      | none => exact untouched
      | some halves =>
        have whole := eq_of_cut?_uncommented found
        have exchanged := replaceFrom_proxy new named.1 l.number (whole.symm ▸ flat)
        rw [whole] at exchanged
        rw [Option.map_some, Option.toList_some, List.flatMap_singleton, if_pos rfl]
        exact exchanged
    | proxyGroup =>
      dsimp only
      rw [renamedEntry, NumberedLine.rawEntry?, Entry.ofLine?, read]
      cases found : cut? '=' l.text.uncommented with
      | none => exact untouched
      | some halves =>
        have whole := eq_of_cut?_uncommented found
        have clean := (not_mem_of_cut?_uncommented found).2
        have exchanged := replaceFrom_group new named.1 l.number clean (whole.symm ▸ flat) rfl
        rw [whole] at exchanged
        rw [Option.map_some, Option.toList_some, List.flatMap_singleton, if_pos rfl]
        exact exchanged
    | rule =>
      have whole := uncommented_append_comment l.text
      have flatContent : '\n' ∉ l.text.uncommented := fun member =>
        flat (mem_of_mem_uncommented member)
      have flatComment : '\n' ∉ l.text.comment := fun member =>
        flat (whole ▸ List.mem_append_right _ member)
      exact replaceFrom_rule new named.1 l flatContent flatComment
    | general | host | env | onDemand => exact untouched

end Columns

end ProxyConfig

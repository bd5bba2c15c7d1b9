import ProxyConfig.Proofs.Completion.Stretch
import ProxyConfig.Proofs.Keyword
import ProxyConfig.Proofs.Text.Edit
import ProxyConfig.Validation.Group
import ProxyConfig.Validation.Proxy

/-! # What is offered at a cursor

Each kind of section offers words for one stretch of its line: the key or the first value of a setting,
an argument of a declaration or one side of its `=`, or a piece of a rule. The lemmas here say which
offers come from which stretch, so that what holds of the ranges and of the edits is said once.
-/

namespace ProxyConfig

open Text

variable {item : CompletionItem}

namespace CompletionItem

variable {range : Range}

theorem range_of_mem_values {words : List String} (member : item ∈ values words range) :
    item.range = range := by
  obtain ⟨word, -, rfl⟩ := List.mem_map.mp member
  rfl

theorem kind_of_mem_actors {doc : Document} {excluded : Option Text}
    (member : item ∈ actors doc range excluded) : item.kind = .reference := by
  obtain ⟨d, -, rfl⟩ := List.mem_map.mp member
  rfl

theorem range_of_mem_actors {doc : Document} {excluded : Option Text}
    (member : item ∈ actors doc range excluded) : item.range = range := by
  obtain ⟨d, -, rfl⟩ := List.mem_map.mp member
  rfl

/-- What is offered of a plain word. -/
structure OffersWord (item : CompletionItem) (range : Range) (word : String) : Prop where
  kind : item.kind = .value
  label : item.label = word
  range : item.range = range
  newText : item.newText = word

theorem exists_offersWord {words : List String} (member : item ∈ values words range) :
    ∃ word ∈ words, item.OffersWord range word := by
  obtain ⟨word, listed, rfl⟩ := List.mem_map.mp member
  exact ⟨word, listed, rfl, rfl, rfl, rfl⟩

section PropertyKeys

variable {K : Type} [Keyword K] {required allowed : List K} {used : List Text} {hasEquals : Bool}

/-- What is offered of a property key; an `=` comes with it if none is there. -/
structure OffersKey (item : CompletionItem) (range : Range) (key : K) (hasEquals : Bool) : Prop where
  kind : item.kind = .property
  label : item.label = Keyword.spelling key
  range : item.range = range
  newText : item.newText.toList = Keyword.text key ++ if hasEquals then [] else ['=']

theorem offersKey_ofPropertyKey (key : K) (detail : String) (range : Range) (hasEquals : Bool) :
    (ofPropertyKey key detail range hasEquals).OffersKey range key hasEquals where
  kind := rfl
  label := rfl
  range := rfl
  newText := by
    cases hasEquals with
    | true => exact (List.append_nil _).symm
    | false => exact String.toList_append ..

/-- An offered property key is accepted and not used yet. -/
theorem exists_offersKey (member : item ∈ propertyKeys required allowed used range hasEquals) :
    ∃ key : K, (key ∈ required ∨ key ∈ allowed) ∧ Keyword.text key ∉ used ∧
      item.OffersKey range key hasEquals := by
  rcases List.mem_append.mp member with member | member
  · obtain ⟨key, listed, rfl⟩ := List.mem_map.mp member
    obtain ⟨required, unused⟩ := List.mem_filter.mp listed
    exact ⟨key, .inl required, by simpa using unused, offersKey_ofPropertyKey ..⟩
  · obtain ⟨key, listed, rfl⟩ := List.mem_map.mp member
    obtain ⟨allowed, unused⟩ := List.mem_filter.mp listed
    exact ⟨key, .inr allowed, by simpa using unused, offersKey_ofPropertyKey ..⟩

theorem range_of_mem_propertyKeys
    (member : item ∈ propertyKeys required allowed used range hasEquals) : item.range = range := by
  obtain ⟨key, -, -, offers⟩ := exists_offersKey member
  exact offers.range

/-- Every key that is accepted and not used yet is offered. -/
theorem exists_mem_propertyKeys {key : K} (listed : key ∈ required ∨ key ∈ allowed)
    (unused : Keyword.text key ∉ used) (range : Range) (hasEquals : Bool) :
    ∃ item ∈ propertyKeys required allowed used range hasEquals,
      item.OffersKey range key hasEquals := by
  have fresh : (!used.contains (Keyword.text key)) = true := by simpa using unused
  rcases listed with required | allowed
  · exact ⟨_, List.mem_append_left _ (List.mem_map_of_mem (List.mem_filter.mpr ⟨required, fresh⟩)),
      offersKey_ofPropertyKey ..⟩
  · exact ⟨_, List.mem_append_right _ (List.mem_map_of_mem (List.mem_filter.mpr ⟨allowed, fresh⟩)),
      offersKey_ofPropertyKey ..⟩

end PropertyKeys

end CompletionItem

/-- A family of keywords whose spellings are read back wherever they are put. -/
class Keyword.Words (K : Type) [Keyword K] : Prop where
  isWord : ∀ k : K, (Keyword.text k).IsWord

instance : Keyword.Words ProxyProperty := ⟨fun k => by cases k <;> decide +kernel⟩

instance : Keyword.Words GroupProperty := ⟨fun k => by cases k <;> decide +kernel⟩

instance : Keyword.Words SettingKey := ⟨fun k => by cases k <;> decide +kernel⟩

theorem ValueKind.isWord_of_mem_words {kind : ValueKind} :
    ∀ word ∈ kind.words, IsWord word.toList := by
  cases kind <;> decide +kernel

namespace SettingKey

variable (key : SettingKey) (range : Range) (snippets : Bool)

theorem range_item : (key.item range snippets).range = range := by
  unfold item
  split <;> rfl

theorem kind_item : (key.item range snippets).kind = .property := by
  unfold item
  split <;> rfl

theorem label_item : (key.item range snippets).label = Keyword.spelling key := by
  unfold item
  split <;> rfl

/-- A new setting is its key, an `=` behind a blank, and what helps with the value. -/
theorem exists_newText_item : ∃ rest,
    (key.item range snippets).newText.toList = Keyword.text key ++ (' ' :: '=' :: rest) := by
  have plain : (Keyword.spelling key ++ " = ").toList = Keyword.text key ++ " = ".toList :=
    String.toList_append
  have choice (choices : List String) : (choiceTemplate (Keyword.spelling key) choices).toList =
      Keyword.text key ++ (" = $\x7b1|".toList ++ ((",".intercalate choices).toList ++ "|\x7d".toList)) := by
    rw [choiceTemplate, String.toList_append, String.toList_append, String.toList_append,
      List.append_assoc, List.append_assoc]
    rfl
  cases key with
  | tun =>
    have text : ((tun.item range snippets).newText) = "tun = auto" := by cases snippets <;> rfl
    exact ⟨" auto".toList, by rw [text]; rfl⟩
  | logLevel | routingDomainResolve =>
    cases snippets
    · exact ⟨_, plain⟩
    · exact ⟨_, choice _⟩
  | _ => exact ⟨_, plain⟩

/-- The new text of a setting, with its template or without, can be put into a line. -/
theorem fitsLine_newText_item : FitsLine (key.item range snippets).newText.toList ∧
    '#' ∉ (key.item range snippets).newText.toList := by
  have fits : ∀ key : SettingKey, ∀ snippets,
      FitsLine (key.item (.point ⟨1, 1⟩) snippets).newText.toList ∧
        '#' ∉ (key.item (.point ⟨1, 1⟩) snippets).newText.toList := by
    intro key snippets
    cases key <;> cases snippets <;> decide +kernel
  have same : (key.item range snippets).newText = (key.item (.point ⟨1, 1⟩) snippets).newText := by
    unfold item
    split <;> rfl
  rw [same]
  exact fits key snippets

end SettingKey

namespace Cursor

variable {c : Cursor} {snippets : Bool}

/-- What is offered of the key of a setting: the key for the one in front of the `=` of the line, or the
key with an `=` behind it for all of the line. -/
structure OffersSetting (c : Cursor) (item : CompletionItem) (key : SettingKey) (s : c.Stretch) :
    Prop where
  fresh : Keyword.text key ∉ c.settingsElsewhere
  kind : item.kind = .property
  label : item.label = Keyword.spelling key
  range : item.range = s.range
  fits : FitsLine item.newText.toList ∧ '#' ∉ item.newText.toList
  front : s.front = []
  newText :
    ('=' ∉ s.inside ∧ (∃ value, s.back = '=' :: value) ∧ item.newText.toList = Keyword.text key) ∨
      (s.back = [] ∧ ∃ rest, item.newText.toList = Keyword.text key ++ (' ' :: '=' :: rest))

theorem exists_offersSetting (short : c.column - 1 ≤ c.content.length)
    (member : item ∈ c.settingKeyItems snippets)
    (upTo : ∀ key value, cut? '=' c.content = some (key, value) → c.column ≤ key.length + 1) :
    ∃ key s, c.OffersSetting item key s := by
  rw [settingKeyItems] at member
  dsimp only at member
  split at member
  · next key value cut =>
    obtain ⟨k, listed, rfl⟩ := List.mem_map.mp member
    obtain ⟨split, keyed⟩ := cut?_eq_some_iff.mp cut
    have reach := upTo key value cut
    let s : c.Stretch := ⟨[], key, '=' :: value, split, Nat.zero_le _, by
      rw [List.length_nil, Nat.zero_add]
      omega⟩
    have fresh := (List.mem_filter.mp listed).2
    have isWord := Keyword.Words.isWord k
    exact ⟨k, s, by simpa using fresh, rfl, rfl, rfl, ⟨isWord.fitsLine, isWord.unmarked⟩, rfl,
      .inl ⟨keyed, ⟨value, rfl⟩, rfl⟩⟩
  · obtain ⟨k, listed, rfl⟩ := List.mem_map.mp member
    let s : c.Stretch := ⟨[], c.content, [], by rw [List.append_nil, List.nil_append],
      Nat.zero_le _, by rw [List.length_nil, Nat.zero_add]; exact short⟩
    have fresh := (List.mem_filter.mp listed).2
    exact ⟨k, s, by simpa using fresh, k.kind_item _ _, k.label_item _ _, k.range_item _ _,
      k.fitsLine_newText_item _ _, rfl, .inr ⟨rfl, k.exists_newText_item _ _⟩⟩

theorem range_of_mem_settingValueItems (short : c.column - 1 ≤ c.content.length) {equals : Nat}
    (position : c.equalsColumn? = some equals) (behind : equals < c.column)
    (member : item ∈ c.settingValueItems) :
    ∃ key, ∃ a : c.PieceAt (key ++ ['=']), item.kind = .value ∧ item.range = a.stretch.range := by
  rw [settingValueItems] at member
  split at member
  · cases member
  next entry read =>
  split at member
  · cases member
  next first =>
  have found : c.argument? = some (entry, 0) :=
    argument?_eq_some_iff.mpr ⟨read, (not_not.mp first).symm, equals, position, behind⟩
  obtain ⟨key, a, -, index, rfl⟩ := exists_pieceAt_of_argument? found short
  have range := c.wordRange_congr (a.first_arguments_agrees index)
  have offered {words : List String}
      (member : item ∈ CompletionItem.values words (c.wordRange a.entry.arguments.first)) :
      item.kind = .value ∧ item.range = a.stretch.range := by
    obtain ⟨word, -, offers⟩ := CompletionItem.exists_offersWord member
    exact ⟨offers.kind, offers.range.trans range⟩
  refine ⟨key, a, ?_⟩
  dsimp only at member
  split at member
  · exact offered member
  · exact offered member
  · exact offered member
  · cases member

/-- An offer for a setting is one of its key, or of a word for the first piece of its value. -/
theorem mem_settingItems_cases (short : c.column - 1 ≤ c.content.length)
    (member : item ∈ c.settingItems snippets) :
    (∃ key s, c.OffersSetting item key s) ∨
      ∃ key, ∃ a : c.PieceAt (key ++ ['=']), item.kind = .value ∧ item.range = a.stretch.range := by
  rw [settingItems] at member
  split at member
  · next none =>
    refine .inl (exists_offersSetting short member fun key value cut => ?_)
    rw [equalsColumn?, cut] at none
    cases none
  · next equals position =>
    split at member
    · next behind => exact .inr (range_of_mem_settingValueItems short position behind member)
    · next upTo =>
      refine .inl (exists_offersSetting short member fun key value cut => ?_)
      rw [equalsColumn?, cut] at position
      cases position
      exact Nat.not_lt.mp upTo

/-! ## Declarations -/

section Declarations

variable {base key : Text}

/-- The stretch of a key: the part of the piece in front of its `=`, or all of a piece without one. -/
structure PieceAt.KeySlot (a : c.PieceAt base) (s : c.Stretch) (hasEquals : Bool) : Prop where
  front : s.front = a.front
  plain : '=' ∉ s.inside
  rest : ∃ rest, a.piece = s.inside ++ rest ∧ s.back = rest ++ a.back ∧
    if hasEquals then ∃ value, rest = '=' :: value else rest = []

theorem PieceAt.KeySlot.comma_not_mem {a : c.PieceAt base} {s : c.Stretch} {hasEquals : Bool}
    (slot : a.KeySlot s hasEquals) : ',' ∉ s.inside := by
  obtain ⟨rest, piece, -⟩ := slot.rest
  exact fun member => a.comma_not_mem (by rw [piece]; exact List.mem_append_left _ member)

/-- The stretch of a value: the part of the piece behind its first `=`. -/
structure PieceAt.ValueSlot (a : c.PieceAt base) (s : c.Stretch) (key : Text) (property : Entry) :
    Prop where
  front : s.front = a.front ++ (key ++ ['='])
  back : s.back = a.back
  piece : a.piece = key ++ '=' :: s.inside
  keyed : '=' ∉ key
  read : a.stretch.word.property? c.line = some property
  keyText : property.key.text = key.trim

theorem PieceAt.ValueSlot.comma_not_mem {a : c.PieceAt base} {s : c.Stretch} {key : Text}
    {property : Entry} (slot : a.ValueSlot s key property) : ',' ∉ s.inside := by
  have clean := a.comma_not_mem
  rw [slot.piece, List.mem_append, List.mem_cons, not_or, not_or] at clean
  exact clean.2.2

theorem exists_keySlot {a : c.PieceAt base} {word : Span} {hasEquals : Bool}
    (slot : c.slot a.stretch.word = .key word hasEquals) :
    ∃ s : c.Stretch, c.wordRange word = s.range ∧ a.KeySlot s hasEquals := by
  obtain ⟨absent, plain⟩ | ⟨key, value, property, found⟩ := a.slot_cases
  · rw [slot] at plain
    cases plain
    exact ⟨a.stretch, rfl, rfl, absent, [], (List.append_nil _).symm, rfl, rfl⟩
  · have side := found.slot
    rw [slot] at side
    split at side
    · cases side
    · next upTo =>
      cases side
      exact ⟨a.keyStretch found.split (Nat.not_lt.mp upTo), c.wordRange_congr found.keySpan, rfl,
        found.keyed, '=' :: value, found.split, rfl, value, rfl⟩

theorem exists_valueSlot {a : c.PieceAt base} {property : Entry}
    (slot : c.slot a.stretch.word = .value property) :
    ∃ s key, c.wordRange property.value = s.range ∧ a.ValueSlot s key property := by
  obtain ⟨-, plain⟩ | ⟨key, value, _, found⟩ := a.slot_cases
  · rw [slot] at plain
    cases plain
  · have side := found.slot
    rw [slot] at side
    split at side
    · next behind =>
      cases side
      have text : property.key.text = key.trim := by
        rw [found.keySpan.text_eq, Span.text_trimmed]
      refine ⟨a.valueStretch found.split behind, key, ?_, rfl, rfl, found.split, found.keyed,
        found.read, text⟩
      rw [found.valueSpan, Stretch.range, Stretch.word, PieceAt.valueStretch]
      congr 2
      simp only [List.length_append, List.length_cons, List.length_nil]
      omega
    · cases side

/-- The stretch of a name that refers to an actor: a piece without an `=`, or the value of a property
that takes an actor. -/
inductive PieceAt.ActorSlot (a : c.PieceAt base) (kindOf : Entry → Option ValueKind) (s : c.Stretch) :
    Prop where
  | member (slot : a.KeySlot s false)
  | value (key : Text) (property : Entry) (slot : a.ValueSlot s key property)
      (known : kindOf property = some .actor)

theorem PieceAt.ActorSlot.comma_not_mem {a : c.PieceAt base} {kindOf : Entry → Option ValueKind}
    {s : c.Stretch} (slot : a.ActorSlot kindOf s) : ',' ∉ s.inside := by
  cases slot with
  | member slot => exact slot.comma_not_mem
  | value _ _ slot => exact slot.comma_not_mem

/-- What is offered in an argument of a declaration behind its type: keys that the declaration may
have, and then all of them, the words that a property takes, or actors. -/
inductive PieceAt.OffersArgument {K : Type} [Keyword K] (a : c.PieceAt (key ++ ['=']))
    (rules : PropertyRules K) (kindOf : Entry → Option ValueKind) (used : List Text)
    (items : List CompletionItem) (item : CompletionItem) : Prop where
  | key (s : c.Stretch) (hasEquals : Bool) (slot : a.KeySlot s hasEquals)
      (offered : item ∈
        CompletionItem.propertyKeys rules.required rules.allowed used s.range hasEquals)
      (complete :
        CompletionItem.propertyKeys rules.required rules.allowed used s.range hasEquals ⊆ items)
  | value (s : c.Stretch) (key : Text) (property : Entry) (slot : a.ValueSlot s key property)
      (kind : ValueKind) (known : kindOf property = some kind)
      (offered : item ∈ CompletionItem.values kind.words s.range)
  | actor (s : c.Stretch) (slot : a.ActorSlot kindOf s)
      (offered : item ∈ CompletionItem.actors c.doc s.range (some a.entry.key.text))

/-- What is offered in a declaration: types in its first argument, and what the type takes behind. -/
inductive OffersDeclaration {T K : Type} [Keyword T] [Keyword K] (c : Cursor)
    (rules : T → PropertyRules K) (kindOf : T → Entry → Option ValueKind)
    (items : List CompletionItem) (item : CompletionItem) : Prop where
  | type (key : Text) (a : c.PieceAt (key ++ ['='])) (kind : item.kind = .keyword ∨ item.kind = .template)
      (range : item.range = a.stretch.range)
  | argument (key : Text) (a : c.PieceAt (key ++ ['='])) (keyed : '=' ∉ key)
      (found : c.argument? = some (a.entry, a.earlier.length)) (behind : a.earlier.length ≠ 0)
      (t : T) (known : Keyword.parse? a.entry.arguments.first.text = some t)
      (offers :
        a.OffersArgument (rules t) (kindOf t) (a.entry.keysBeside a.earlier.length) items item)

theorem kind_of_mem_typeItems {T : Type} [Keyword T] {arguments : Pieces} {template : T → String}
    (member : item ∈ c.typeItems arguments snippets template) :
    (item.kind = .keyword ∨ item.kind = .template) ∧ item.range = c.wordRange arguments.first := by
  obtain ⟨t, -, rfl⟩ := List.mem_map.mp member
  split
  · exact ⟨.inr rfl, rfl⟩
  · exact ⟨.inl rfl, rfl⟩

theorem offersArgument_of_mem_proxyPropertyItems {a : c.PieceAt (key ++ ['='])} {p : Protocol}
    (member : item ∈ c.proxyPropertyItems a.entry a.earlier.length p a.stretch.word) :
    a.OffersArgument p.rules p.valueKind? (a.entry.keysBeside a.earlier.length)
      (c.proxyPropertyItems a.entry a.earlier.length p a.stretch.word) item := by
  generalize offers : c.proxyPropertyItems a.entry a.earlier.length p a.stretch.word = items
    at member ⊢
  rw [proxyPropertyItems] at offers
  split at offers
  · next word hasEquals side =>
    obtain ⟨s, range, slot⟩ := exists_keySlot side
    rw [range] at offers
    subst offers
    exact .key s hasEquals slot member (List.Subset.refl _)
  · next property side =>
    obtain ⟨s, name, range, slot⟩ := exists_valueSlot side
    rw [range] at offers
    subst offers
    dsimp only at member
    split at member
    · next known => exact .value s name property slot .cipher known member
    · next known => exact .value s name property slot .boolean known member
    · cases member

theorem offersArgument_of_mem_groupArgumentItems {a : c.PieceAt (key ++ ['='])} {t : GroupType}
    (member : item ∈ c.groupArgumentItems a.entry a.earlier.length t a.stretch.word) :
    a.OffersArgument t.rules t.valueKind? (a.entry.keysBeside a.earlier.length)
      (c.groupArgumentItems a.entry a.earlier.length t a.stretch.word) item := by
  generalize offers : c.groupArgumentItems a.entry a.earlier.length t a.stretch.word = items
    at member ⊢
  rw [groupArgumentItems] at offers
  dsimp only at offers
  split at offers
  · next property side =>
    obtain ⟨s, name, range, slot⟩ := exists_valueSlot side
    rw [groupValueItems, range] at offers
    subst offers
    split at member
    · next known => exact .value s name property slot .method known member
    · next known => exact .value s name property slot .boolean known member
    · next known => exact .actor s (.value name property slot known) member
    · cases member
  · next word side =>
    obtain ⟨s, range, slot⟩ := exists_keySlot side
    rw [range] at offers
    subst offers
    exact .key s true slot member (List.Subset.refl _)
  · next word side =>
    obtain ⟨s, range, slot⟩ := exists_keySlot side
    rw [range] at offers
    have actors (member : item ∈ CompletionItem.actors c.doc s.range (some a.entry.key.text)) :
        a.OffersArgument t.rules t.valueKind? (a.entry.keysBeside a.earlier.length) items item :=
      .actor s (.member slot) member
    split at offers
    · subst offers
      exact actors member
    · split at offers
      · subst offers
        rcases List.mem_append.mp member with member | member
        · exact .key s false slot member (List.subset_append_left ..)
        · exact actors member
      · subst offers
        exact .key s false slot member (List.Subset.refl _)

theorem offersDeclaration_of_mem_proxyItems (short : c.column - 1 ≤ c.content.length)
    (member : item ∈ c.proxyItems snippets) :
    c.OffersDeclaration Protocol.rules Protocol.valueKind? (c.proxyItems snippets) item := by
  generalize offers : c.proxyItems snippets = items at member ⊢
  rw [proxyItems] at offers
  split at offers
  · rw [← offers] at member
    cases member
  next entry index found =>
  obtain ⟨key, a, keyed, rfl, rfl⟩ := exists_pieceAt_of_argument? found short
  split at offers
  · next first =>
    obtain ⟨kind, range⟩ := kind_of_mem_typeItems (offers ▸ member)
    exact .type key a kind (range.trans (c.wordRange_congr (a.first_arguments_agrees first)))
  · next behind =>
    rw [a.piece?_arguments behind] at offers
    split at offers
    · next p argument known same =>
      cases same
      split at offers
      · rw [← offers] at member
        cases member
      · subst offers
        exact .argument key a keyed found behind p known
          (offersArgument_of_mem_proxyPropertyItems member)
    · rw [← offers] at member
      cases member

theorem offersDeclaration_of_mem_groupItems (short : c.column - 1 ≤ c.content.length)
    (member : item ∈ c.groupItems snippets) :
    c.OffersDeclaration GroupType.rules GroupType.valueKind? (c.groupItems snippets) item := by
  generalize offers : c.groupItems snippets = items at member ⊢
  rw [groupItems] at offers
  split at offers
  · rw [← offers] at member
    cases member
  next entry index found =>
  obtain ⟨key, a, keyed, rfl, rfl⟩ := exists_pieceAt_of_argument? found short
  split at offers
  · next first =>
    obtain ⟨kind, range⟩ := kind_of_mem_typeItems (offers ▸ member)
    exact .type key a kind (range.trans (c.wordRange_congr (a.first_arguments_agrees first)))
  · next behind =>
    rw [a.piece?_arguments behind] at offers
    split at offers
    · next t argument known same =>
      cases same
      subst offers
      exact .argument key a keyed found behind t known
        (offersArgument_of_mem_groupArgumentItems member)
    · rw [← offers] at member
      cases member

end Declarations

/-! ## Rules -/

/-- What is offered for the piece of a rule that the cursor is in: types for the first piece, words for
a matcher, and actors for the target of a known type. -/
inductive OffersRule (c : Cursor) (item : CompletionItem) : Prop where
  | type (a : c.PieceAt []) (kind : item.kind = .keyword) (range : item.range = a.stretch.range)
  | matcher (a : c.PieceAt []) (kind : item.kind = .value) (range : item.range = a.stretch.range)
  | target (a : c.PieceAt []) (rule : RuleType)
      (known : Keyword.parse? (Pieces.read 1 c.content).first.text = some rule)
      (index : a.earlier.length = rule.targetIndex)
      (offered : item ∈ CompletionItem.actors c.doc a.stretch.range none)

/-- The pieces of a line without a comment are those of its content. -/
theorem PieceAt.piece?_content (a : c.PieceAt []) :
    (Pieces.read 1 c.content).piece? a.earlier.length = some a.stretch.word := by
  have column : 1 + (a.earlier.flatMap (· ++ [','])).length = a.front.length + 1 := by
    rw [a.length_front, List.length_nil]
    omega
  have text : c.content = a.text := a.split
  rw [text, Pieces.piece?_read a.pieces_text, column]
  rfl

theorem kind_of_mem_matcherItems {rule : RuleType} {matcher : Span}
    (member : item ∈ c.matcherItems rule matcher) :
    item.kind = .value ∧ item.range = c.wordRange matcher := by
  rw [matcherItems.eq_def] at member
  dsimp only at member
  split at member
  · obtain ⟨word, -, rfl⟩ := List.mem_map.mp member
    exact ⟨rfl, rfl⟩
  · split at member
    · cases member
    · obtain ⟨source, -, rfl⟩ := List.mem_map.mp member
      exact ⟨rfl, rfl⟩
  · cases member

theorem offersRule_of_mem_ruleItems (short : c.column - 1 ≤ c.content.length)
    (member : item ∈ c.ruleItems) : c.OffersRule item := by
  have split : c.content = [] ++ c.content := rfl
  obtain ⟨a, -, count⟩ := PieceAt.exists_pieceAt split (Nat.zero_le _) short
  have index : c.pieceIndex c.content 1 = a.earlier.length := count.symm
  rw [ruleItems, index] at member
  dsimp only at member
  rw [a.piece?_content] at member
  dsimp only at member
  split at member
  · obtain ⟨rule, -, rfl⟩ := List.mem_map.mp member
    exact .type a rfl rfl
  split at member
  · cases member
  next rule known =>
  split at member
  · next last => exact .target a rule known last member
  split at member
  · obtain ⟨kind, range⟩ := kind_of_mem_matcherItems member
    exact .matcher a kind range
  · cases member

end Cursor

end ProxyConfig

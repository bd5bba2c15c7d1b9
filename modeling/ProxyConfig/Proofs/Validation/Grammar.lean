import ProxyConfig.Validation.Rules
import ProxyConfig.Proofs.Validation.Properties
import ProxyConfig.Proofs.Value.Numerals

/-! # The grammar of declarations and rules

The value of a declaration is a head, plain operands and properties, and the checks of proxies and
groups go over these three parts one after the other. Together they accept a grammar of values: the
head is a keyword, and it decides about the operands and the properties. A rule is a type, and the
type decides how many arguments follow.
-/

namespace ProxyConfig

open Text

/-! ## The parts of a value -/

/-- A value whose comma-separated pieces, trimmed, are a head, operands without an `=`, and the
texts of a property list. -/
structure Text.Declares (value head : Text) (operands properties : List Text) : Prop where
  pieces : (List.splitOn ',' value).map trim = head :: (operands ++ properties)
  plain : ∀ x ∈ operands, '=' ∉ x

theorem Pieces.map_text_read (column : Nat) (s : Text) :
    (Pieces.read column s).toList.map Span.text = (List.splitOn ',' s).map trim := by
  rw [toList_read, map_text_place, pieces_eq_splitOn]

/-- The plain texts in front of a property list are those before its first property. -/
theorem Pieces.others_eq_append_iff {p : Pieces} {operands properties : List Text}
    (head : p.first.isPlain = true) (plain : ∀ x ∈ operands, '=' ∉ x)
    (paired : ∀ q ∈ properties, '=' ∈ q) :
    p.others.map Span.text = operands ++ properties ↔
      p.operands.map Span.text = operands ∧ p.properties.map Span.text = properties := by
  rw [operands_of_isPlain head, properties_of_isPlain head]
  constructor
  · intro whole
    have before : (p.others.takeWhile Span.isPlain).map Span.text =
        (p.others.map Span.text).takeWhile fun s => !s.contains '=' := by
      rw [List.takeWhile_map]
      rfl
    have behind : (p.others.dropWhile Span.isPlain).map Span.text =
        (p.others.map Span.text).dropWhile fun s => !s.contains '=' := by
      rw [List.dropWhile_map]
      rfl
    have all : ∀ x ∈ operands, (!x.contains '=') = true := by simpa using plain
    have ends : properties.takeWhile (fun s => !s.contains '=') = [] ∧
        properties.dropWhile (fun s => !s.contains '=') = properties := by
      cases properties with
      | nil => exact ⟨rfl, rfl⟩
      | cons q rest => simp [paired q]
    rw [before, behind, whole, List.takeWhile_append_of_pos all, List.dropWhile_append_of_pos all,
      ends.1, ends.2, List.append_nil]
    exact ⟨rfl, rfl⟩
  · rintro ⟨rfl, rfl⟩
    rw [← List.map_append, List.takeWhile_append_dropWhile]

/-- The arguments of an entry are the parts of its value. -/
theorem Entry.declares_iff {e : Entry} {head : Text} {operands properties : List Text}
    (keyword : '=' ∉ head) (paired : ∀ q ∈ properties, '=' ∈ q) :
    e.value.text.Declares head operands properties ↔
      e.arguments.first.text = head ∧ e.arguments.operands.map Span.text = operands ∧
        e.arguments.properties.map Span.text = properties := by
  have parts : (List.splitOn ',' e.value.text).map trim =
      e.arguments.first.text :: e.arguments.others.map Span.text :=
    (Pieces.map_text_read e.value.column e.value.text).symm
  constructor
  · rintro ⟨pieces, plain⟩
    obtain ⟨rfl, others⟩ := List.cons.inj (parts.symm.trans pieces)
    have first := Span.isPlain_iff.mpr keyword
    exact ⟨rfl, (Pieces.others_eq_append_iff first plain paired).mp others⟩
  · rintro ⟨rfl, rfl, rfl⟩
    have plain : ∀ x ∈ e.arguments.operands.map Span.text, '=' ∉ x :=
      List.forall_mem_map.mpr fun a member =>
        Span.isPlain_iff.mp (Pieces.isPlain_of_mem_operands member)
    have first := Span.isPlain_iff.mpr keyword
    exact ⟨parts.trans (congrArg _ ((Pieces.others_eq_append_iff first plain paired).mpr ⟨rfl, rfl⟩)),
      plain⟩

/-- No argument of an entry that was read off a line reaches into the comment. -/
theorem Entry.not_mem_arguments {line column : Nat} {s : Text} {e : Entry}
    (read : Entry.parse? line column s = some e) {a : Span} (member : a ∈ e.arguments.toList) :
    '#' ∉ a.text := by
  obtain ⟨key, value, -, -, -, clean, -, -, rfl⟩ := exists_append_of_parse? read
  have text : a.text ∈
      (List.splitOn ',' (Span.trimmed (column + key.length + 1) value).text).map trim := by
    rw [← Pieces.map_text_read]
    exact List.mem_map_of_mem member
  obtain ⟨piece, listed, same⟩ := List.mem_map.mp text
  rw [← pieces_eq_splitOn, Span.text_trimmed] at listed
  intro inside
  rw [← same] at inside
  exact clean (mem_of_mem_trim (mem_of_mem_pieces listed (mem_of_mem_trim inside)))

theorem Entry.not_mem_properties {line column : Nat} {s : Text} {e : Entry}
    (read : Entry.parse? line column s = some e) : ∀ a ∈ e.arguments.properties, '#' ∉ a.text :=
  fun _ member => not_mem_arguments read ((List.dropWhile_sublist _).subset member)

/-! ## Proxies -/

/-- The values that a proxy property may have. -/
def ProxyProperty.Takes (key : ProxyProperty) (value : Text) : Prop :=
  (key = .encryptMethod → ∃ cipher ∈ aeadCiphers, cipher.toList = value) ∧
    (key = .amuxMax ∨ key = .amuxCon → value.WritesInt64)

/-- The operands of a protocol: a host and a port, or none. -/
def Protocol.TakesOperands (p : Protocol) (operands : List Text) : Prop :=
  if p.requiresHost = true then
    ∃ host port, operands = [host, port] ∧ host ≠ [] ∧ port.IsPort
  else operands = []

/-- The grammar of the values of proxies. -/
def IsProxyValue (value : Text) : Prop :=
  ∃ (p : Protocol) (operands properties : List Text),
    value.Declares (Keyword.text p) operands properties ∧ p.TakesOperands operands ∧
      p.rules.Takes ProxyProperty.Takes properties

theorem errorless_checkProxyValue_iff {key : ProxyProperty} {property : Entry} :
    Errorless (checkProxyValue key property) ↔ key.Takes property.value.text := by
  cases key with
  | encryptMethod =>
    rw [checkProxyValue, ProxyProperty.valueKind, errorless_ite_iff rfl, isListed_iff]
    simp [ProxyProperty.Takes]
  | amuxMax | amuxCon => simp [checkProxyValue, ProxyProperty.valueKind, ProxyProperty.Takes,
      Span.errorless_checkInteger_iff]
  | _ => simp [checkProxyValue, ProxyProperty.valueKind, ProxyProperty.Takes,
      Span.errorless_checkBoolean, errorless_nil]

theorem Text.IsPort.ne_nil {s : Text} (port : s.IsPort) : s ≠ [] := by
  rintro rfl
  cases port.1

theorem errorless_checkHostAndPort_iff {e : Entry} {operands : List Span} :
    Errorless (checkHostAndPort e operands) ↔ ∃ host port rest, operands = host :: port :: rest ∧
      host.text ≠ [] ∧ port.text.IsPort := by
  rcases operands with _ | ⟨host, _ | ⟨port, rest⟩⟩
  · simp [checkHostAndPort, Errorless, Issue.on, Issue.severity]
  · simp [checkHostAndPort, Errorless, Issue.on, Issue.severity]
  · rw [checkHostAndPort, errorless_append, errorless_ite_iff rfl]
    split
    · next absent =>
      have blank : port.text = [] := by simpa [Option.filter, Span.isEmpty] using absent
      refine iff_of_false (fun clean => clean.2.severity_ne rfl) ?_
      rintro ⟨first, second, others, same, -, valid⟩
      cases same
      exact valid.ne_nil blank
    · next given present =>
      obtain ⟨same, -⟩ := Option.filter_eq_some_iff.mp present
      cases same
      rw [Span.errorless_checkPort_iff]
      simp [Option.filter, Span.isEmpty]

theorem errorless_checkOperands_iff {p : Protocol} {e : Entry} {operands : List Span} :
    Errorless (checkOperands p e operands) ↔ p.TakesOperands (operands.map Span.text) := by
  rw [checkOperands, Protocol.TakesOperands, errorless_append, errorless_map_iff fun _ => rfl]
  cases p.requiresHost with
  | false => simp [errorless_nil]
  | true =>
    simp only [if_true, errorless_checkHostAndPort_iff, List.drop_eq_nil_iff]
    constructor
    · rintro ⟨⟨host, port, rest, rfl, named, valid⟩, short⟩
      obtain rfl : rest = [] := by simpa using short
      exact ⟨host.text, port.text, rfl, named, valid⟩
    · rintro ⟨host, port, same, named, valid⟩
      obtain ⟨first, behind, rfl, rfl, tail⟩ := List.map_eq_cons_iff.mp same
      obtain ⟨second, rfl, rfl⟩ := List.map_eq_singleton_iff.mp tail
      exact ⟨⟨first, second, [], rfl, named, valid⟩, le_rfl⟩

/-- The check of a proxy goes on from a known protocol only. -/
theorem errorless_checkProxy_iff_parts {e : Entry} :
    Errorless (checkProxy e) ↔ ∃ p : Protocol, e.arguments.first.text = Keyword.text p ∧
      Errorless (p.rules.check e.line e.valueRange
        (fun key property _ => checkProxyValue key property) e.arguments.properties) ∧
      Errorless (checkOperands p e e.arguments.operands) := by
  constructor
  · intro clean
    rw [checkProxy] at clean
    split at clean
    · exact absurd rfl clean.severity_ne
    split at clean
    · exact absurd rfl clean.severity_ne
    · next p known => exact ⟨p, (Keyword.text_of_parse? known).symm, errorless_append.mp clean⟩
  · rintro ⟨p, spelled, parts⟩
    have solid : e.arguments.first.isEmpty = false := by
      rw [Span.isEmpty, spelled]
      cases p <;> rfl
    simp only [checkProxy, solid, Keyword.parse?_eq_some_iff.mpr spelled.symm]
    exact errorless_append.mpr parts

/-- The check of a proxy accepts exactly the grammar of proxies. -/
theorem errorless_checkProxy_iff {line column : Nat} {s : Text} {e : Entry}
    (read : Entry.parse? line column s = some e) :
    Errorless (checkProxy e) ↔ IsProxyValue e.value.text := by
  have keyword (p : Protocol) : '=' ∉ Keyword.text p := by cases p <;> decide
  have listed (p : Protocol) : Errorless (p.rules.check e.line e.valueRange
      (fun key property _ => checkProxyValue key property) e.arguments.properties) ↔
        p.rules.Takes ProxyProperty.Takes (e.arguments.properties.map Span.text) :=
    PropertyRules.errorless_check_iff_takes (Entry.not_mem_properties read)
      fun _ _ _ => errorless_checkProxyValue_iff
  rw [errorless_checkProxy_iff_parts]
  constructor
  · rintro ⟨p, spelled, properties, operands⟩
    have takes := (listed p).mp properties
    exact ⟨p, _, _, (Entry.declares_iff (keyword p) takes.paired).mpr ⟨spelled, rfl, rfl⟩,
      errorless_checkOperands_iff.mp operands, takes⟩
  · rintro ⟨p, operands, properties, declares, plain, takes⟩
    obtain ⟨spelled, rfl, rfl⟩ := (Entry.declares_iff (keyword p) takes.paired).mp declares
    exact ⟨p, spelled, (listed p).mpr takes, errorless_checkOperands_iff.mpr plain⟩

theorem isProxyValue_vmess :
    Entry.parse? 1 1 "p = vmess, h, 080,amux-max=+8 , encrypt-method=aes-128-gcm, username= # u".toList =
        some ⟨1, ⟨"p".toList, 1⟩,
          ⟨"vmess, h, 080,amux-max=+8 , encrypt-method=aes-128-gcm, username=".toList, 5⟩⟩ ∧
      IsProxyValue "vmess, h, 080,amux-max=+8 , encrypt-method=aes-128-gcm, username=".toList := by
  have read : Entry.parse? 1 1
      "p = vmess, h, 080,amux-max=+8 , encrypt-method=aes-128-gcm, username= # u".toList =
        some ⟨1, ⟨"p".toList, 1⟩,
          ⟨"vmess, h, 080,amux-max=+8 , encrypt-method=aes-128-gcm, username=".toList, 5⟩⟩ := by
    decide
  exact ⟨read, (errorless_checkProxy_iff read).mp (by decide)⟩

/-! ## Groups -/

/-- The values that a group property may have, behind the names that the document declares. -/
def GroupProperty.Takes (names : List Text) (key : GroupProperty) (value : Text) : Prop :=
  (key.valueKind = .integer → value.WritesInt64) ∧
    (key = .method → ∃ method ∈ groupMethods, method.toList = value) ∧
      (key = .lastResort → value ∈ names)

/-- The grammar of the values of groups, behind the names that the document declares. -/
def IsGroupValue (names : List Text) (value : Text) : Prop :=
  ∃ (t : GroupType) (actors properties : List Text),
    value.Declares (Keyword.text t) actors properties ∧
      (actors ≠ [] ∧ ∀ actor ∈ actors, actor ≠ [] ∧ actor ∈ names) ∧
        t.rules.Takes (GroupProperty.Takes names) properties

section Groups

variable {names : List Text} {e : Entry}

theorem errorless_checkGroupValue_iff {key : GroupProperty} {property : Entry} :
    Errorless (checkGroupValue names key property) ↔ key.Takes names property.value.text := by
  cases key with
  | lastResort =>
    rw [checkGroupValue, GroupProperty.valueKind, errorless_ite_iff rfl, List.contains_iff_mem]
    simp [GroupProperty.Takes, GroupProperty.valueKind]
  | method =>
    rw [checkGroupValue, GroupProperty.valueKind, errorless_ite_iff rfl, isListed_iff]
    simp [GroupProperty.Takes, GroupProperty.valueKind]
  | _ => simp [checkGroupValue, GroupProperty.valueKind, GroupProperty.Takes,
      Span.errorless_checkBoolean, Span.errorless_checkInteger_iff]

/-- The hint at `failover` in a `url-test` group is a warning. -/
theorem errorless_checkGroupProperty_iff {t : GroupType} {key : GroupProperty} {property : Entry}
    {argument : Span} : Errorless (checkGroupProperty t names key property argument) ↔
      key.Takes names property.value.text := by
  have hint : Errorless (if key = .failover ∧ t = .urlTest then
      [Issue.failoverInUrlTest.on (argument.range property.line)] else []) := by
    split <;> simp [Errorless, Issue.on, Issue.severity]
  rw [checkGroupProperty, errorless_append, errorless_checkGroupValue_iff, and_iff_right hint]

theorem errorless_checkActor_iff {line : Nat} {actor : Span} :
    Errorless (checkActor names line actor) ↔ actor.text ≠ [] ∧ actor.text ∈ names := by
  rw [checkActor]
  split
  · next void =>
    rw [Span.isEmpty, List.isEmpty_iff] at void
    exact iff_of_false (fun clean => clean.severity_ne rfl) fun good => good.1 void
  · next solid =>
    rw [Span.isEmpty, List.isEmpty_iff] at solid
    rw [errorless_ite_iff rfl, List.contains_iff_mem, and_iff_right solid]

theorem errorless_checkActors_iff {actors : List Span} :
    Errorless (checkActors names e actors) ↔ actors.map Span.text ≠ [] ∧
      ∀ actor ∈ actors.map Span.text, actor ≠ [] ∧ actor ∈ names := by
  rw [checkActors, List.forall_mem_map, ne_eq, List.map_eq_nil_iff]
  split
  · next none =>
    exact iff_of_false (fun clean => clean.severity_ne rfl) fun good => good.1 (List.isEmpty_iff.mp none)
  · next some =>
    rw [List.isEmpty_iff] at some
    simp only [errorless_flatMap, errorless_checkActor_iff, some, not_false_eq_true, true_and]

/-- The check of a group goes on from a known type only. -/
theorem errorless_checkGroup_iff_parts :
    Errorless (checkGroup names e) ↔ ∃ t : GroupType, e.arguments.first.text = Keyword.text t ∧
      Errorless (t.rules.check e.line e.valueRange (checkGroupProperty t names)
        e.arguments.properties) ∧
      Errorless (checkActors names e e.arguments.operands) := by
  constructor
  · intro clean
    rw [checkGroup] at clean
    split at clean
    · exact absurd rfl clean.severity_ne
    split at clean
    · refine absurd ?_ clean.severity_ne
      change (unknownGroupType _).severity = .error
      rw [unknownGroupType]
      split <;> rfl
    · next t known => exact ⟨t, (Keyword.text_of_parse? known).symm, errorless_append.mp clean⟩
  · rintro ⟨t, spelled, parts⟩
    have solid : e.arguments.first.isEmpty = false := by
      rw [Span.isEmpty, spelled]
      cases t <;> rfl
    simp only [checkGroup, solid, Keyword.parse?_eq_some_iff.mpr spelled.symm]
    exact errorless_append.mpr parts

/-- The check of a group accepts exactly the grammar of groups. -/
theorem errorless_checkGroup_iff (names : List Text) {line column : Nat} {s : Text}
    (read : Entry.parse? line column s = some e) :
    Errorless (checkGroup names e) ↔ IsGroupValue names e.value.text := by
  have keyword (t : GroupType) : '=' ∉ Keyword.text t := by cases t <;> decide
  have listed (t : GroupType) : Errorless (t.rules.check e.line e.valueRange
      (checkGroupProperty t names) e.arguments.properties) ↔
        t.rules.Takes (GroupProperty.Takes names) (e.arguments.properties.map Span.text) :=
    PropertyRules.errorless_check_iff_takes (Entry.not_mem_properties read)
      fun _ _ _ => errorless_checkGroupProperty_iff
  rw [errorless_checkGroup_iff_parts]
  constructor
  · rintro ⟨t, spelled, properties, actors⟩
    have takes := (listed t).mp properties
    exact ⟨t, _, _, (Entry.declares_iff (keyword t) takes.paired).mpr ⟨spelled, rfl, rfl⟩,
      errorless_checkActors_iff.mp actors, takes⟩
  · rintro ⟨t, actors, properties, declares, named, takes⟩
    obtain ⟨spelled, rfl, rfl⟩ := (Entry.declares_iff (keyword t) takes.paired).mp declares
    exact ⟨t, spelled, (listed t).mpr takes, errorless_checkActors_iff.mpr named⟩

end Groups

theorem isGroupValue_failover :
    Entry.parse? 1 1 "g = failover, a,b , last-resort=b, fail-timeout=-3 # two".toList =
        some ⟨1, ⟨"g".toList, 1⟩, ⟨"failover, a,b , last-resort=b, fail-timeout=-3".toList, 5⟩⟩ ∧
      IsGroupValue ["a".toList, "b".toList]
        "failover, a,b , last-resort=b, fail-timeout=-3".toList := by
  have read : Entry.parse? 1 1 "g = failover, a,b , last-resort=b, fail-timeout=-3 # two".toList =
      some ⟨1, ⟨"g".toList, 1⟩, ⟨"failover, a,b , last-resort=b, fail-timeout=-3".toList, 5⟩⟩ := by
    decide
  exact ⟨read, (errorless_checkGroup_iff _ read).mp (by decide)⟩

/-! ## Rules -/

section Rules

variable {actors : Namespace} {first? : Option Range} {l : NumberedLine}

theorem severity_arityIssue (type : RuleType) (found : Nat) :
    (arityIssue type found).severity = .error := by
  rw [arityIssue]
  split <;> rfl

theorem errorless_checkTarget_iff {target : Span} {line : Nat} :
    Errorless (checkTarget actors target line) ↔ actors.contains target.text = true :=
  errorless_ite_iff rfl

/-- A second `FINAL` rule is an error. -/
theorem errorless_checkFinal_iff {here : Range} :
    Errorless (checkFinal first? here) ↔ first? = none := by
  cases first? with
  | none => exact iff_of_true errorless_nil rfl
  | some first => exact iff_of_false (fun clean => clean.severity_ne rfl) (Option.some_ne_none _)

/-- The check of a rule goes on from a known type with the right number of arguments only. -/
theorem errorless_checkRule_iff_parts :
    Errorless (checkRule actors first? l) ↔
      ∃ type : RuleType, Keyword.parse? l.pieces.first.text = some type ∧
        ((type = .final ∧ first? = none ∧ ∃ target, l.pieces.others = [target] ∧
            actors.contains target.text = true) ∨
          type ≠ .final ∧ ∃ matcher target, l.pieces.others = [matcher, target] ∧
            Errorless (checkMatcher type matcher l.number) ∧
              actors.contains target.text = true) := by
  constructor
  · intro clean
    rw [checkRule] at clean
    split at clean
    · exact absurd rfl clean.severity_ne
    · next final =>
      split at clean
      · next target others =>
        obtain ⟨alone, declared⟩ := errorless_append.mp clean
        exact ⟨.final, final, .inl ⟨rfl, errorless_checkFinal_iff.mp alone, target, others,
          errorless_checkTarget_iff.mp declared⟩⟩
      · exact absurd (severity_arityIssue .final l.pieces.others.length) clean.severity_ne
    · next type other known =>
      split at clean
      · next matcher target others =>
        obtain ⟨matched, declared⟩ := errorless_append.mp clean
        exact ⟨type, known, .inr ⟨other, matcher, target, others, matched,
          errorless_checkTarget_iff.mp declared⟩⟩
      · exact absurd (severity_arityIssue type l.pieces.others.length) clean.severity_ne
  · rintro ⟨type, known, ⟨rfl, rfl, target, others, declared⟩ |
      ⟨other, matcher, target, others, matched, declared⟩⟩
    · rw [checkRule, known, others]
      exact errorless_append.mpr
        ⟨errorless_checkFinal_iff.mpr rfl, errorless_checkTarget_iff.mpr declared⟩
    · have whole : checkRule actors first? l =
          checkMatcher type matcher l.number ++ checkTarget actors target l.number := by
        rw [checkRule, known, others]
        cases type with
        | final => exact absurd rfl other
        | _ => rfl
      rw [whole]
      exact errorless_append.mpr ⟨matched, errorless_checkTarget_iff.mpr declared⟩

end Rules

end ProxyConfig

import ProxyConfig.Validation
import ProxyConfig.Proofs.Earlier
import ProxyConfig.Proofs.Validation.Errorless
import Mathlib.Data.List.Forall2

/-! # Passes over lines

Settings, hosts and declarations are checked in the same way, line by line: what is read off a line is
checked behind what was read off the lines before it, and a line off which nothing can be read is
reported. What holds of such a pass follows from what holds of its parts. Rules are checked behind the
first final one before them alone.
-/

namespace ProxyConfig

/-- What is read off a line, the report on a line that cannot be read, and the one on what was read,
behind what the earlier lines gave. -/
structure Pass (L E : Type) where
  read : L → Option E
  fault : L → Diagnostic
  check : List E → E → List Diagnostic

namespace Pass

variable {L E : Type}

/-- The reports on the lines behind what was read off the earlier ones. -/
def runFrom (pass : Pass L E) (earlier : List E) : List L → List Diagnostic
  | [] => []
  | l :: rest =>
    match pass.read l with
    | none => pass.fault l :: runFrom pass earlier rest
    | some e => pass.check earlier e ++ runFrom pass (earlier ++ [e]) rest

def settings : Pass NumberedLine Entry where
  read := NumberedLine.entry?
  fault l := l.report .settingWithoutEquals
  check := checkSetting

def hosts : Pass NumberedLine Entry where
  read := NumberedLine.entry?
  fault l := l.report .hostWithoutEquals
  check := checkHost

def declarations : Pass ActorLine Declaration where
  read := ActorLine.declaration?
  fault l := l.line.report .declarationWithoutEquals
  check := checkDeclaration

variable {pass : Pass L E} {lines : List L} {earlier : List E}

/-- What goes on line by line as the pass does is the pass. -/
theorem eq_runFrom {run : List E → List L → List Diagnostic} (nil : ∀ earlier, run earlier [] = [])
    (unread : ∀ earlier l rest, pass.read l = none →
      run earlier (l :: rest) = pass.fault l :: run earlier rest)
    (read : ∀ earlier l rest e, pass.read l = some e →
      run earlier (l :: rest) = pass.check earlier e ++ run (earlier ++ [e]) rest) :
    run earlier lines = pass.runFrom earlier lines := by
  induction lines generalizing earlier with
  | nil => exact nil earlier
  | cons l rest ih =>
    rw [runFrom]
    split
    · next found => rw [unread earlier l rest found, ih]
    · next e found => rw [read earlier l rest e found, ih]

/-- A pass reports nothing but what its parts do. -/
theorem forall_mem_runFrom {P : Diagnostic → Prop} {Q : E → Prop}
    (reads : ∀ l ∈ lines, ∀ e ∈ pass.read l, Q e) (faults : ∀ l ∈ lines, P (pass.fault l))
    (checks : ∀ earlier e, (∀ first ∈ earlier, Q first) → Q e → ∀ d ∈ pass.check earlier e, P d)
    (before : ∀ first ∈ earlier, Q first) : ∀ d ∈ pass.runFrom earlier lines, P d := by
  induction lines generalizing earlier with
  | nil => exact fun d member => absurd member List.not_mem_nil
  | cons l rest ih =>
    obtain ⟨readable, readables⟩ := List.forall_mem_cons.mp reads
    obtain ⟨fault, others⟩ := List.forall_mem_cons.mp faults
    rw [runFrom]
    split
    · exact List.forall_mem_cons.mpr ⟨fault, ih readables others before⟩
    · next e found =>
      have here := readable e found
      refine List.forall_mem_append.mpr ⟨checks earlier e before here, ih readables others ?_⟩
      exact List.forall_mem_append.mpr ⟨before, List.forall_mem_singleton.mpr here⟩

/-- A pass reports the lines that cannot be read, and what was read off each other line behind what was
read before it. -/
theorem mem_runFrom_iff {d : Diagnostic} : d ∈ pass.runFrom earlier lines ↔
    (∃ l ∈ lines, pass.read l = none ∧ d = pass.fault l) ∨
      ∃ p ∈ (lines.filterMap pass.read).withEarlier, d ∈ pass.check (earlier ++ p.1) p.2 := by
  induction lines generalizing earlier with
  | nil => simp [runFrom, List.withEarlier]
  | cons l rest ih =>
    rw [runFrom]
    cases read : pass.read l with
    | none =>
      rw [List.filterMap_cons_none read]
      simp only [List.mem_cons, ih, exists_eq_or_imp, read, true_and, or_assoc]
    | some e =>
      rw [List.filterMap_cons_some read, List.withEarlier]
      simp only [List.mem_append, ih, List.mem_cons, List.mem_map, exists_eq_or_imp, read,
        List.append_nil, List.append_assoc, exists_exists_and_eq_and, reduceCtorEq, false_and,
        false_or, List.cons_append, List.nil_append]
      exact or_left_comm

/-- A pass reports no error if every line can be read and what was read passes its check. -/
theorem errorless_runFrom_iff (bad : ∀ l, (pass.fault l).severity = .error) :
    Errorless (pass.runFrom [] lines) ↔ (∀ l ∈ lines, (pass.read l).isSome = true) ∧
      ∀ p ∈ (lines.filterMap pass.read).withEarlier, Errorless (pass.check p.1 p.2) := by
  constructor
  · intro clean
    refine ⟨fun l member => Option.isSome_iff_ne_none.mpr fun unread => ?_, fun p member d found => ?_⟩
    · exact clean _ (mem_runFrom_iff.mpr (.inl ⟨l, member, unread, rfl⟩)) (bad l)
    · exact clean d (mem_runFrom_iff.mpr (.inr ⟨p, member, found⟩))
  · rintro ⟨readable, checked⟩ d found
    obtain ⟨l, member, unread, -⟩ | ⟨p, member, found⟩ := mem_runFrom_iff.mp found
    · exact absurd unread (Option.isSome_iff_ne_none.mp (readable l member))
    · exact checked p member d found

/-- What is selected of a report, if no line is selected that cannot be read. -/
theorem filter_runFrom {select : Diagnostic → Bool} (faults : ∀ l, select (pass.fault l) = false) :
    (pass.runFrom earlier lines).filter select = (lines.filterMap pass.read).withEarlier.flatMap
      fun p => (pass.check (earlier ++ p.1) p.2).filter select := by
  induction lines generalizing earlier with
  | nil => rfl
  | cons l rest ih =>
    rw [runFrom]
    cases read : pass.read l with
    | none =>
      rw [List.filterMap_cons_none read]
      dsimp only
      rw [List.filter_cons_of_neg (by simp [faults l]), ih]
    | some e =>
      rw [List.filterMap_cons_some read, List.withEarlier]
      dsimp only
      rw [List.filter_append, ih, List.flatMap_cons, List.flatMap_map, List.append_nil]
      simp only [List.append_assoc, List.singleton_append]

/-- If lines are related to others that are read and checked alike, then so are the reports. -/
theorem runFrom_map {L' E' : Type} {pass' : Pass L' E'} {lines' : List L'} {R : L → L' → Prop}
    {item : E → E'} {report : Diagnostic → Diagnostic}
    (reads : ∀ l l', R l l' → pass'.read l' = (pass.read l).map item)
    (faults : ∀ l l', R l l' → pass'.fault l' = report (pass.fault l))
    (checks : ∀ earlier e,
      pass'.check (earlier.map item) (item e) = (pass.check earlier e).map report)
    (related : List.Forall₂ R lines lines') :
    pass'.runFrom (earlier.map item) lines' = (pass.runFrom earlier lines).map report := by
  induction related generalizing earlier with
  | nil => rfl
  | @cons l l' rest rest' here _ ih =>
    rw [runFrom, runFrom, reads l l' here]
    cases pass.read l with
    | none =>
      dsimp only [Option.map_none]
      rw [faults l l' here, ih, List.map_cons]
    | some e =>
      have behind := @ih (earlier ++ [e])
      rw [List.map_append, List.map_singleton] at behind
      dsimp only [Option.map_some]
      rw [behind, checks, List.map_append]

end Pass

theorem checkSettingsFrom_eq (earlier : List Entry) (lines : List NumberedLine) :
    checkSettingsFrom earlier lines = Pass.settings.runFrom earlier lines := by
  apply Pass.eq_runFrom fun _ => rfl
  · intro earlier l rest (unread : l.entry? = none)
    rw [checkSettingsFrom, unread]
    rfl
  · intro earlier l rest e (read : l.entry? = some e)
    rw [checkSettingsFrom, read]
    rfl

theorem checkHostsFrom_eq (earlier : List Entry) (lines : List NumberedLine) :
    checkHostsFrom earlier lines = Pass.hosts.runFrom earlier lines := by
  apply Pass.eq_runFrom fun _ => rfl
  · intro earlier l rest (unread : l.entry? = none)
    rw [checkHostsFrom, unread]
    rfl
  · intro earlier l rest e (read : l.entry? = some e)
    rw [checkHostsFrom, read]
    rfl

theorem checkDeclarationsFrom_eq (earlier : List Declaration) (lines : List ActorLine) :
    checkDeclarationsFrom earlier lines = Pass.declarations.runFrom earlier lines := by
  apply Pass.eq_runFrom fun _ => rfl
  · intro earlier l rest (unread : l.declaration? = none)
    rw [checkDeclarationsFrom, unread]
    rfl
  · intro earlier l rest d (read : l.declaration? = some d)
    rw [checkDeclarationsFrom, read]
    rfl

/-- Each rule is checked behind the first final rule before it. -/
theorem checkRulesFrom_eq_flatMap {actors : Namespace} (first? : Option Range)
    (lines : List NumberedLine) :
    checkRulesFrom actors first? lines = lines.withEarlier.flatMap fun p =>
      checkRule actors (first?.or (p.1.findSome? NumberedLine.final?)) p.2 := by
  induction lines generalizing first? with
  | nil => rfl
  | cons l rest ih =>
    rw [checkRulesFrom, ih, List.withEarlier, List.flatMap_cons, List.flatMap_map,
      List.findSome?_nil, Option.or_none]
    congr 1
    refine List.flatMap_congr fun p _ => ?_
    rw [List.findSome?_cons, Option.or_assoc]
    cases l.final? <;> rfl

end ProxyConfig

import ProxyConfig.Value.Check
import ProxyConfig.Proofs.Validation.Errorless
import Mathlib.Tactic.SplitIfs

/-! # Numerals

What the checks of single values accept, as texts: a port is a row of digits with a bounded value, an
integer is a row of digits behind an optional sign. Words that are no Booleans are warned of only.

Numbers are read into a range of integers and the values are meant without one. The two agree, since a
range that holds what digits write holds what any first few of them write: reading a digit leaves the
range exactly if the value with that digit lies outside of it.
-/

namespace ProxyConfig

namespace Text

variable {s digits : Text} {n : Int}

/-- A row of ASCII digits with a value that a port can have. -/
def IsPort (s : Text) : Prop := s.isDigits = true ∧ s.decimalValue ≤ 65535

/-- A row of ASCII digits behind an optional sign, with the value that it writes. -/
def Writes (s : Text) (n : Int) : Prop :=
  ∃ sign digits : Text, s = sign ++ digits ∧ digits.isDigits = true ∧
    ((sign = [] ∨ sign = ['+']) ∧ n = digits.decimalValue ∨
      sign = ['-'] ∧ n = -digits.decimalValue)

/-- A text that writes a signed integer of 64 bits. -/
def WritesInt64 (s : Text) : Prop :=
  ∃ n, s.Writes n ∧ -0x8000000000000000 ≤ n ∧ n < 0x8000000000000000

theorem not_mem_of_isDigits {c : Char} (row : digits.isDigits = true) (other : c.isDigit = false) :
    c ∉ digits := by
  intro inside
  rw [isDigits, Bool.and_eq_true, List.all_eq_true] at row
  rw [row.2 c inside] at other
  cases other

theorem isDigits_iff : digits.isDigits = true ↔ digits ≠ [] ∧ ∀ c ∈ digits, c.isDigit = true := by
  simp [isDigits, List.isEmpty_eq_false_iff]

/-- The number that digits write behind a number. -/
def valueBehind (m : Nat) (digits : Text) : Nat :=
  digits.foldl (fun value c => 10 * value + digitValue c) m

theorem valueBehind_cons (m : Nat) (c : Char) (rest : Text) :
    valueBehind m (c :: rest) = valueBehind (10 * m + digitValue c) rest := by
  rw [valueBehind, List.foldl_cons, valueBehind]

theorem le_valueBehind (m : Nat) (digits : Text) : m ≤ valueBehind m digits := by
  induction digits generalizing m with
  | nil => exact Nat.le_refl m
  | cons c rest ih =>
    have further := ih (10 * m + digitValue c)
    rw [valueBehind_cons]
    omega

end Text

namespace IntegerRange

open Text

variable {r : IntegerRange} {s digits : Text} {sign n : Int} {m : Nat}

theorem contains_iff : r.contains n = true ↔ r.least ≤ n ∧ n ≤ r.greatest := by
  simp [contains]

theorem keep?_eq_some_iff {k : Int} : r.keep? n = some k ↔ k = n ∧ r.contains n = true := by
  rw [keep?, Option.ite_none_right_eq_some, Option.some.injEq, and_comm, eq_comm]

/-- A range that holds an integer holds those between it and zero. -/
theorem contains_of_le (unit : sign = 1 ∨ sign = -1) {k : Nat} (below : m ≤ k)
    (inside : r.contains (sign * k) = true) : r.contains (sign * m) = true := by
  have low := r.least_le_zero
  have high := r.zero_le_greatest
  rw [contains_iff] at inside ⊢
  rcases unit with rfl | rfl <;> omega

/-- One more digit can be read exactly if the value with it lies in the range: then ten times the value
before it does as well. -/
theorem readDigit?_eq_some_iff (unit : sign = 1 ∨ sign = -1) {c : Char} :
    r.readDigit? sign (sign * m) c = some n ↔ c.isDigit = true ∧
      n = sign * (10 * m + digitValue c : Nat) ∧ r.contains n = true := by
  have tens : sign * m * 10 = sign * (10 * m : Nat) := by
    rcases unit with rfl | rfl <;> omega
  have sum : sign * (10 * m : Nat) + sign * digitValue c = sign * (10 * m + digitValue c : Nat) := by
    rw [← Int.mul_add, Int.natCast_add]
  rw [readDigit?, Option.ite_none_right_eq_some, Option.bind_eq_some_iff, tens]
  refine and_congr_right fun _ => ⟨?_, ?_⟩
  · rintro ⟨scaled, first, second⟩
    obtain ⟨rfl, -⟩ := keep?_eq_some_iff.mp first
    obtain ⟨rfl, inside⟩ := keep?_eq_some_iff.mp second
    exact ⟨sum, inside⟩
  · rintro ⟨rfl, inside⟩
    refine ⟨_, keep?_eq_some_iff.mpr ⟨rfl, contains_of_le unit (Nat.le_add_right ..) inside⟩, ?_⟩
    rw [sum]
    exact keep?_eq_some_iff.mpr ⟨rfl, inside⟩

/-- Digits can be read behind a value exactly if the number that they write behind it lies in the range.
So no step fails where the whole succeeds. -/
theorem foldlM_readDigit?_eq_some_iff (unit : sign = 1 ∨ sign = -1)
    (start : r.contains (sign * m) = true) :
    digits.foldlM (r.readDigit? sign) (sign * m) = some n ↔ (∀ c ∈ digits, c.isDigit = true) ∧
      n = sign * valueBehind m digits ∧ r.contains n = true := by
  induction digits generalizing m with
  | nil =>
    rw [List.foldlM_nil, Option.pure_def, Option.some.injEq]
    constructor
    · rintro rfl
      exact ⟨List.forall_mem_nil _, rfl, start⟩
    · rintro ⟨-, rfl, -⟩
      rfl
  | cons c rest ih =>
    rw [List.foldlM_cons, Option.bind_eq_bind, Option.bind_eq_some_iff, List.forall_mem_cons,
      valueBehind_cons]
    constructor
    · rintro ⟨next, step, others⟩
      obtain ⟨digit, rfl, inside⟩ := (readDigit?_eq_some_iff unit).mp step
      obtain ⟨row, value, fits⟩ := (ih inside).mp others
      exact ⟨⟨digit, row⟩, value, fits⟩
    · rintro ⟨⟨digit, row⟩, rfl, fits⟩
      have inside := contains_of_le unit (le_valueBehind _ rest) fits
      exact ⟨_, (readDigit?_eq_some_iff unit).mpr ⟨digit, rfl, inside⟩,
        (ih inside).mpr ⟨row, rfl, fits⟩⟩

theorem readDigits?_eq_some_iff (unit : sign = 1 ∨ sign = -1) :
    r.readDigits? sign digits = some n ↔
      digits.isDigits = true ∧ n = sign * digits.decimalValue ∧ r.contains n = true := by
  have zero : r.contains (sign * (0 : Nat)) = true :=
    contains_iff.mpr ⟨by simpa using r.least_le_zero, by simpa using r.zero_le_greatest⟩
  have read : digits.foldlM (r.readDigit? sign) (sign * (0 : Nat)) = some n ↔ _ :=
    foldlM_readDigit?_eq_some_iff unit zero
  rw [Int.natCast_zero, Int.mul_zero] at read
  rw [readDigits?, Option.ite_none_left_eq_some, read, isDigits_iff, List.isEmpty_iff, and_assoc]
  rfl

/-- A row of digits starts without a sign. -/
theorem read?_of_isDigits (row : s.isDigits = true) :
    r.read? s = some n ↔ n = s.decimalValue ∧ r.contains n = true := by
  have read : r.read? s = r.readDigits? 1 s := by
    unfold read?
    split
    · exact absurd (List.mem_cons_self ..) (not_mem_of_isDigits row (c := '+') rfl)
    · exact absurd (List.mem_cons_self ..) (not_mem_of_isDigits row (c := '-') rfl)
    · rfl
  rw [read, readDigits?_eq_some_iff (.inl rfl), Int.one_mul, and_iff_right row]

/-- What a row of digits writes is read if it is not too great. -/
theorem any_read?_of_isDigits (row : s.isDigits = true) (bound : Nat) (below : bound ≤ r.greatest) :
    ((r.read? s).any fun k => k ≤ (bound : Int)) = true ↔ s.decimalValue ≤ bound := by
  simp only [Option.any_eq_true, decide_eq_true_eq, read?_of_isDigits row]
  constructor
  · rintro ⟨k, ⟨rfl, -⟩, small⟩
    exact Int.ofNat_le.mp small
  · intro small
    have low := r.least_le_zero
    exact ⟨_, ⟨rfl, contains_iff.mpr ⟨by omega, by omega⟩⟩, Int.ofNat_le.mpr small⟩

theorem read?_eq_some_iff (signed : r.least < 0) :
    r.read? s = some n ↔ s.Writes n ∧ r.contains n = true := by
  constructor
  · intro read
    unfold read? at read
    split at read
    · next digits =>
      obtain ⟨row, rfl, inside⟩ := (readDigits?_eq_some_iff (.inl rfl)).mp read
      exact ⟨⟨['+'], digits, rfl, row, .inl ⟨.inr rfl, Int.one_mul _⟩⟩, inside⟩
    · next digits =>
      rw [if_pos signed] at read
      obtain ⟨row, rfl, inside⟩ := (readDigits?_eq_some_iff (.inr rfl)).mp read
      exact ⟨⟨['-'], digits, rfl, row, .inr ⟨rfl, Int.neg_one_mul _⟩⟩, inside⟩
    · obtain ⟨row, rfl, inside⟩ := (readDigits?_eq_some_iff (.inl rfl)).mp read
      exact ⟨⟨[], s, rfl, row, .inl ⟨.inl rfl, Int.one_mul _⟩⟩, inside⟩
  · rintro ⟨⟨sign, digits, rfl, row, ⟨rfl | rfl, rfl⟩ | ⟨rfl, rfl⟩⟩, inside⟩
    · exact (read?_of_isDigits row).mpr ⟨rfl, inside⟩
    · exact (readDigits?_eq_some_iff (.inl rfl)).mpr ⟨row, (Int.one_mul _).symm, inside⟩
    · change (if r.least < 0 then r.readDigits? (-1) digits else none) = _
      rw [if_pos signed]
      exact (readDigits?_eq_some_iff (.inr rfl)).mpr ⟨row, (Int.neg_one_mul _).symm, inside⟩

end IntegerRange

theorem Text.isInteger64_iff {s : Text} : s.isInteger64 = true ↔ s.WritesInt64 := by
  have bounds (n : Int) : IntegerRange.signed64.contains n = true ↔
      -0x8000000000000000 ≤ n ∧ n < 0x8000000000000000 := by
    rw [IntegerRange.contains_iff]
    exact and_congr_right fun _ => Int.lt_add_one_iff.symm
  rw [isInteger64, Option.isSome_iff_exists]
  simp only [IntegerRange.read?_eq_some_iff (r := .signed64) (by decide), bounds, WritesInt64]

theorem isListed_iff {words : List String} {s : Text} :
    isListed words s = true ↔ ∃ word ∈ words, word.toList = s := by
  simp [isListed]

namespace Span

variable {a : Span} {line : Nat}

theorem any_read?_port (row : a.text.isDigits = true) :
    ((IntegerRange.unsigned32.read? a.text).any fun port => port ≤ 65535) = true ↔
      a.text.decimalValue ≤ 65535 :=
  IntegerRange.any_read?_of_isDigits row 65535 (by decide)

/-- A port is judged by the number that its digits write. -/
theorem checkPort_eq : a.checkPort line =
    if a.text.isDigits = true then
      if a.text.decimalValue ≤ 65535 then none else some (Issue.portOutOfRange.on (a.range line))
    else some (Issue.invalidPort.on (a.range line)) := by
  rw [checkPort]
  by_cases row : a.text.isDigits = true
  · simp only [row, any_read?_port row, Bool.not_true, Bool.false_eq_true, if_false, if_true]
  · simp only [row, Bool.not_false, if_true, Bool.false_eq_true, if_false]

theorem checkPort_eq_none_iff : a.checkPort line = none ↔ a.text.IsPort := by
  rw [checkPort_eq, Text.IsPort]
  split_ifs with row small
  · simp [row, small]
  · simp [row, small]
  · simp [row]

/-- The code of the report on a port. -/
theorem code_checkPort : (a.checkPort line).bind Diagnostic.code =
    if a.text.isDigits = true then if a.text.decimalValue ≤ 65535 then none else some "LC802"
    else some "LC801" := by
  rw [checkPort_eq]
  split_ifs <;> rfl

theorem errorless_checkPort_iff : Errorless (a.checkPort line).toList ↔ a.text.IsPort := by
  rw [← checkPort_eq_none_iff, checkPort_eq]
  split_ifs <;> simp [Errorless, Issue.on, Issue.severity]

theorem checkInteger_eq_none_iff : a.checkInteger line = none ↔ a.text.WritesInt64 := by
  rw [checkInteger, ← Text.isInteger64_iff]
  cases a.text.isInteger64 <;> simp

theorem errorless_checkInteger_iff :
    Errorless (a.checkInteger line).toList ↔ a.text.WritesInt64 := by
  rw [checkInteger, ← Text.isInteger64_iff]
  cases a.text.isInteger64 <;> simp [Errorless, Issue.on, Issue.severity]

/-- A value that should be a Boolean is no error, whatever it is. -/
theorem errorless_checkBoolean : Errorless (a.checkBoolean line).toList := by
  rw [checkBoolean]
  split <;> simp [Errorless, Issue.on, Issue.severity]

end Span

end ProxyConfig

import ProxyConfig.Client.Encoding
import Mathlib.Order.GaloisConnection.Basic
import Mathlib.Order.Monotone.Basic
import Mathlib.Order.WellFounded

/-! # Positions and their encodings

The number of the character at an offset is the largest one whose own offset does not exceed it, so
the two readings of a line form a Galois connection and numbers survive the way to the client and
back. Offsets survive it too, but for those inside a character of two units.
-/

namespace ProxyConfig

namespace Encoding

variable (encoding : Encoding) (s : Text) {n units : Nat}

@[simp] theorem offset_zero : encoding.offset s 0 = 0 := by
  cases s <;> rfl

/-- The next character is behind the units of this one; behind the line each column is one unit. -/
theorem offset_succ (n : Nat) :
    encoding.offset s (n + 1) = encoding.offset s n + (s[n]?.elim 1 encoding.width) := by
  induction s generalizing n with
  | nil => cases n <;> simp [offset]
  | cons c s ih =>
    cases n with
    | zero => simp [offset]
    | succ n =>
      simp only [offset, List.getElem?_cons_succ]
      rw [ih, Nat.add_assoc]

theorem offset_strictMono : StrictMono (encoding.offset s) := by
  apply strictMono_nat_of_lt_succ
  intro n
  rw [offset_succ]
  cases s[n]? with
  | none => exact Nat.lt_succ_self _
  | some c => exact Nat.lt_add_of_pos_right (encoding.width_pos c)

theorem le_offset (n : Nat) : n ≤ encoding.offset s n := (encoding.offset_strictMono s).le_apply

/-- A character begins at or before an offset exactly if the offset belongs to it or a later one. -/
theorem offset_le_iff : encoding.offset s n ≤ units ↔ n ≤ encoding.indexAt s units := by
  induction s generalizing n units with
  | nil => cases n <;> simp [offset, indexAt]
  | cons c s ih =>
    cases n with
    | zero => simp
    | succ n =>
      rw [offset, indexAt]
      split
      · have tail := @ih n (units - encoding.width c)
        omega
      · omega

theorem gc_offset_indexAt : GaloisConnection (encoding.offset s) (encoding.indexAt s) :=
  fun _ _ => encoding.offset_le_iff s

/-- An offset belongs to the character that begins last among those at or before it. -/
theorem indexAt_eq_of_lt (lower : encoding.offset s n ≤ units)
    (upper : units < encoding.offset s (n + 1)) : encoding.indexAt s units = n := by
  have atLeast := (encoding.offset_le_iff s).mp lower
  have below : ¬ n + 1 ≤ encoding.indexAt s units := by
    rw [← offset_le_iff]
    omega
  omega

theorem indexAt_le (units : Nat) : encoding.indexAt s units ≤ units := by
  have own := (encoding.gc_offset_indexAt s).l_u_le units
  exact (encoding.le_offset s _).trans own

theorem lt_offset_indexAt_succ (units : Nat) :
    units < encoding.offset s (encoding.indexAt s units + 1) := by
  by_contra beyond
  have more := (encoding.offset_le_iff s).mp (Nat.le_of_not_lt beyond)
  omega

/-- The second unit of a surrogate pair, whose first unit is at `start`. -/
def InsidePair (s : Text) (start units : Nat) : Prop :=
  ∃ n c, s[n]? = some c ∧ 0x10000 ≤ c.toNat ∧ utf16.offset s n = start ∧ units = start + 1

/-- An offset inside a pair belongs to the character that the pair encodes. -/
theorem offset_indexAt_of_insidePair {start : Nat} (inside : InsidePair s start units) :
    utf16.offset s (utf16.indexAt s units) = start := by
  obtain ⟨n, c, found, wide, rfl, rfl⟩ := inside
  have next := utf16.offset_succ s n
  have two : utf16.width c = 2 := if_neg (by omega)
  rw [found, Option.elim_some, two] at next
  rw [utf16.indexAt_eq_of_lt s (Nat.le_succ _) (by omega)]

/-- An offset that is not inside a pair is the offset of a character. -/
theorem offset_indexAt_of_outside
    (outside : encoding = utf16 → ∀ start, ¬ InsidePair s start units) :
    encoding.offset s (encoding.indexAt s units) = units := by
  have lower := (encoding.gc_offset_indexAt s).l_u_le units
  have upper := encoding.lt_offset_indexAt_succ s units
  rw [offset_succ] at upper
  cases found : s[encoding.indexAt s units]? with
  | none =>
    rw [found, Option.elim_none] at upper
    omega
  | some c =>
    rw [found, Option.elim_some] at upper
    cases encoding with
    | utf32 =>
      change units < _ + 1 at upper
      omega
    | utf16 =>
      by_cases wide : 0x10000 ≤ c.toNat
      · have two : utf16.width c = 2 := if_neg (by omega)
        have apart : units ≠ utf16.offset s (utf16.indexAt s units) + 1 :=
          fun second => outside rfl _ ⟨_, c, found, wide, rfl, second⟩
        omega
      · have one : utf16.width c = 1 := if_pos (by omega)
        omega

end Encoding

namespace Position

variable {p : Position}

theorem toNat_line_toClient (line : 1 ≤ p.line) (fits : p.line ≤ UInt32.size) :
    p.toClient.line.toNat + 1 = p.line := by
  rw [toClient, UInt32.toNat_ofNat_of_lt' (by omega)]
  omega

theorem toNat_character_toClient (fits : p.column - 1 < UInt32.size) :
    p.toClient.character.toNat = p.column - 1 := by
  rw [toClient, UInt32.toNat_ofNat_of_lt' fits]

end Position

namespace ClientView

variable (view : ClientView) {p : Position}

/-- The units before a column, which a client is told if they fit into 32 bits. -/
def unitsBefore (line column : Nat) : Nat := view.encoding.offset (view.doc.line line) (column - 1)

theorem unitsBefore_lt (line : Nat) {first second : Nat} (positive : 1 ≤ first)
    (less : first < second) : view.unitsBefore line first < view.unitsBefore line second :=
  view.encoding.offset_strictMono _ (by omega)

theorem toNat_character_clientPosition (fits : view.unitsBefore p.line p.column < UInt32.size) :
    (view.clientPosition p).character.toNat = view.unitsBefore p.line p.column := by
  have characters := view.encoding.le_offset (view.doc.line p.line) (p.column - 1)
  rw [unitsBefore] at fits ⊢
  rw [clientPosition, Position.toNat_character_toClient (by omega),
    UInt32.toNat_ofNat_of_lt' fits]

/-- A position comes back from the client as it was. -/
theorem position_clientPosition (line : 1 ≤ p.line) (lineFits : p.line ≤ UInt32.size)
    (column : 1 ≤ p.column) (fits : view.unitsBefore p.line p.column < UInt32.size) :
    view.position (view.clientPosition p) = p := by
  have sameLine : (view.clientPosition p).line.toNat + 1 = p.line :=
    Position.toNat_line_toClient line lineFits
  rw [position, sameLine, view.toNat_character_clientPosition fits, unitsBefore,
    Encoding.indexAt_offset, Nat.sub_add_cancel column]

/-- A client's position comes back with the offset of the character that it names. -/
theorem clientPosition_position (p : ClientPosition) :
    view.clientPosition (view.position p) =
      ⟨p.line, .ofNat (view.encoding.offset (view.doc.line (p.line.toNat + 1))
        (view.encoding.indexAt (view.doc.line (p.line.toNat + 1)) p.character.toNat))⟩ := by
  have bound := view.encoding.indexAt_le (view.doc.line (p.line.toNat + 1)) p.character.toNat
  have fits := p.character.toNat_lt_size
  rw [clientPosition, Position.toNat_character_toClient (by simp only [position]; omega)]
  simp [position, Position.toClient]

/-- Positions survive the way to a client and back in both encodings, behind the ends of lines and
documents, too, if the column counts from 1 and the units before it fit 32 bits, and the line likewise.
A client's positions survive it but for those inside a surrogate pair, which come back as its start. On
a line the units before a column grow with the column, and so do the client's offsets within the bounds
that the first part has for columns. Columns do not shrink as offsets grow. -/
theorem positions_round_trip (view : ClientView) :
    (∀ p : Position, 1 ≤ p.line → p.line ≤ UInt32.size → 1 ≤ p.column →
      view.unitsBefore p.line p.column < UInt32.size →
        view.position (view.clientPosition p) = p) ∧
    (∀ p : ClientPosition,
      (∀ start, view.encoding = .utf16 →
        Encoding.InsidePair (view.doc.line (p.line.toNat + 1)) start p.character.toNat →
          (view.clientPosition (view.position p)).line = p.line ∧
            (view.clientPosition (view.position p)).character.toNat = start) ∧
      ((view.encoding = .utf16 → ∀ start,
        ¬ Encoding.InsidePair (view.doc.line (p.line.toNat + 1)) start p.character.toNat) →
          view.clientPosition (view.position p) = p)) ∧
    (∀ line first second, 1 ≤ first → first < second →
      view.unitsBefore line first < view.unitsBefore line second ∧
        (view.unitsBefore line second < UInt32.size →
          (view.clientPosition ⟨line, first⟩).character <
            (view.clientPosition ⟨line, second⟩).character)) ∧
    (∀ line (first second : UInt32), first ≤ second →
      (view.position ⟨line, first⟩).column ≤ (view.position ⟨line, second⟩).column) := by
  refine ⟨fun p => view.position_clientPosition, fun p => ⟨?_, ?_⟩, ?_, ?_⟩
  · intro start utf16 inside
    have fits := p.character.toNat_lt_size
    have second : p.character.toNat = start + 1 := by
      obtain ⟨_, _, -, -, -, second⟩ := inside
      exact second
    rw [view.clientPosition_position, utf16, Encoding.offset_indexAt_of_insidePair _ inside]
    exact ⟨rfl, UInt32.toNat_ofNat_of_lt' (by omega)⟩
  · intro outside
    rw [view.clientPosition_position, view.encoding.offset_indexAt_of_outside _ outside,
      UInt32.ofNat_toNat]
  · intro line first second positive less
    have grows := view.unitsBefore_lt line positive less
    refine ⟨grows, fun fits => ?_⟩
    rw [UInt32.lt_iff_toNat_lt,
      view.toNat_character_clientPosition (p := ⟨line, first⟩) (grows.trans fits),
      view.toNat_character_clientPosition (p := ⟨line, second⟩) fits]
    exact grows
  · intro line first second order
    have monotone := (view.encoding.gc_offset_indexAt (view.doc.line (line.toNat + 1))).monotone_u
    exact Nat.succ_le_succ (monotone (UInt32.le_iff_toNat_le.mp order))

/-- A target of one character outside the first plane, with the cursor before, in and behind it. -/
theorem positions_round_trip_pair :
    let view : ClientView := ⟨.parse "[Rule]\nFINAL, 😀".toList, .utf16⟩
    (view.unitsBefore 2 9 < UInt32.size ∧
      view.position (view.clientPosition ⟨2, 9⟩) = ⟨2, 9⟩) ∧
    (Encoding.InsidePair (view.doc.line 2) 7 8 ∧
      (view.clientPosition (view.position ⟨1, 8⟩)).line = 1 ∧
        (view.clientPosition (view.position ⟨1, 8⟩)).character.toNat = 7) ∧
    ((∀ start, ¬ Encoding.InsidePair (view.doc.line 2) start 9) ∧
      view.clientPosition (view.position ⟨1, 9⟩) = ⟨1, 9⟩) ∧
    (view.clientPosition ⟨2, 8⟩).character < (view.clientPosition ⟨2, 9⟩).character ∧
    (view.position ⟨1, 7⟩).column ≤ (view.position ⟨1, 8⟩).column := by
  intro view
  obtain ⟨there, back, grows, order⟩ := positions_round_trip view
  have fits : view.unitsBefore 2 9 < UInt32.size := by decide +kernel
  have inside : Encoding.InsidePair (view.doc.line 2) 7 8 :=
    ⟨7, '😀', by decide +kernel, by decide, by decide +kernel, rfl⟩
  have outside : ∀ start, ¬ Encoding.InsidePair (view.doc.line 2) start 9 := by
    rintro _ ⟨n, c, -, -, rfl, second⟩
    have increasing := (Encoding.utf16.offset_strictMono (view.doc.line 2)).monotone
    have seven : Encoding.utf16.offset (view.doc.line 2) 7 = 7 := by decide +kernel
    have eight : Encoding.utf16.offset (view.doc.line 2) 8 = 9 := by decide +kernel
    rcases Nat.lt_or_ge n 8 with before | behind
    · have upTo := increasing (show n ≤ 7 by omega)
      omega
    · have reach := increasing behind
      omega
  exact ⟨⟨fits, there ⟨2, 9⟩ (by decide) (by decide) (by decide) fits⟩,
    ⟨inside, (back ⟨1, 8⟩).1 7 rfl inside⟩, ⟨outside, (back ⟨1, 9⟩).2 fun _ => outside⟩,
    (grows 2 8 9 (by decide) (by decide)).2 fits, order 1 7 8 (by decide)⟩

end ClientView

end ProxyConfig

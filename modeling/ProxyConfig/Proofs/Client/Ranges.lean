import ProxyConfig.Proofs.Client.Encoding
import ProxyConfig.Text.Span

/-! # Ranges and their encodings

A range reaches a client directly, or with offsets that count characters which are encoded later.
Both ways a line keeps its number if that fits into 32 bits, and a column that does not fit loses the
same bits, so the two ways end at the same range.
-/

namespace ProxyConfig

namespace Range

/-- Both ends of the range are on the line. -/
def LiesOn (line : Nat) (r : Range) : Prop := r.start.line = line ∧ r.stop.line = line

/-- Both ends of the range are on lines from the first up to the given one. -/
def LiesIn (count : Nat) (r : Range) : Prop :=
  (1 ≤ r.start.line ∧ r.start.line ≤ count) ∧ 1 ≤ r.stop.line ∧ r.stop.line ≤ count

instance (line : Nat) (r : Range) : Decidable (r.LiesOn line) :=
  inferInstanceAs (Decidable (r.start.line = line ∧ r.stop.line = line))

variable {r : Range} {line count : Nat}

@[simp] theorem liesOn_between (line first last : Nat) : (between line first last).LiesOn line :=
  ⟨rfl, rfl⟩

@[simp] theorem liesOn_point (p : Position) : (point p).LiesOn p.line := ⟨rfl, rfl⟩

theorem LiesOn.liesIn (here : r.LiesOn line) (positive : 1 ≤ line) (upTo : line ≤ count) :
    r.LiesIn count := by
  rw [LiesIn, here.1, here.2]
  exact ⟨⟨positive, upTo⟩, positive, upTo⟩

theorem LiesIn.mono {more : Nat} (inside : r.LiesIn count) (upTo : count ≤ more) :
    r.LiesIn more :=
  ⟨⟨inside.1.1, inside.1.2.trans upTo⟩, inside.2.1, inside.2.2.trans upTo⟩

end Range

@[simp] theorem Span.liesOn_range (a : Span) (line : Nat) : (a.range line).LiesOn line :=
  Range.liesOn_between ..

namespace Encoding

@[simp] theorem offset_utf32 (s : Text) (n : Nat) : utf32.offset s n = n := by
  induction s generalizing n with
  | nil => cases n <;> rfl
  | cons c s ih =>
    cases n with
    | zero => rfl
    | succ n => rw [offset, ih, width, Nat.add_comm]

end Encoding

namespace ClientView

variable (view : ClientView) {p : Position} {r : Range}

/-- Client positions that count characters are those of UTF-32. -/
theorem clientPosition_utf32 (doc : Document) (p : Position) :
    clientPosition ⟨doc, .utf32⟩ p = p.toClient := by
  rw [clientPosition, Encoding.offset_utf32, UInt32.ofNat_toNat]

theorem clientRange_utf32 (doc : Document) (r : Range) :
    clientRange ⟨doc, .utf32⟩ r = r.toClient := by
  rw [clientRange, clientPosition_utf32, clientPosition_utf32, Range.toClient]

/-- A position whose line fits is encoded alike on both ways. -/
theorem clientPosition_toClient (positive : 1 ≤ p.line) (fits : p.line ≤ UInt32.size) :
    view.clientPosition p.toClient.toPosition = view.clientPosition p := by
  have line : p.toClient.toPosition.line = p.line := Position.toNat_line_toClient positive fits
  rw [clientPosition, clientPosition, ClientPosition.toClient_toPosition, line]

theorem reencode_toClient (inside : r.LiesIn UInt32.size) :
    view.reencode r.toClient = view.clientRange r := by
  obtain ⟨start, stop⟩ := inside
  rw [reencode, clientRange, Range.toClient, view.clientPosition_toClient start.1 start.2,
    view.clientPosition_toClient stop.1 stop.2]

/-- A range that is encoded in two steps is the range that is encoded at once. -/
theorem encoded_toClient (inside : r.LiesIn UInt32.size) :
    view.encoded r.toClient = view.clientRange r := by
  obtain ⟨doc, encoding⟩ := view
  cases encoding with
  | utf16 => exact reencode_toClient _ inside
  | utf32 => exact (clientRange_utf32 doc r).symm

/-- The range under UTF-32, re-encoded. -/
theorem reencode_clientRange_utf32 (inside : r.LiesIn UInt32.size) :
    view.reencode (clientRange ⟨view.doc, .utf32⟩ r) = view.clientRange r := by
  rw [clientRange_utf32, view.reencode_toClient inside]

end ClientView

end ProxyConfig

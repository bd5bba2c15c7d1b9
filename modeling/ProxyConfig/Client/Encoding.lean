import ProxyConfig.Client.Position
import ProxyConfig.Document

/-! # Position encodings

A client counts the offset in a line in units of its encoding: each character is one unit or, in
UTF-16, two if it lies beyond the first plane. Behind the end of a line every column is one unit, in
every encoding. An offset inside a character stands for the start of that character.
-/

namespace ProxyConfig

/-- The unit that a client's offsets count. -/
inductive Encoding where
  | utf16
  | utf32
deriving DecidableEq

namespace Encoding

/-- The name under which an encoding is offered. -/
def name : Encoding → String
  | utf16 => "utf-16"
  | utf32 => "utf-32"

/-- The encoding to use with a client: UTF-32 if the client offers it, else UTF-16, which every
client knows. -/
def negotiate (offered : Option (List String)) : Encoding :=
  if (offered.getD []).contains utf32.name then utf32 else utf16

/-- The units of one character. -/
def width : Encoding → Char → Nat
  | utf16, c => if c.toNat < 0x10000 then 1 else 2
  | utf32, _ => 1

/-- The units before the character with the given number, counting from 0. -/
def offset (encoding : Encoding) : Text → Nat → Nat
  | _, 0 => 0
  | [], n + 1 => n + 1
  | c :: s, n + 1 => encoding.width c + encoding.offset s n

/-- The number of the character, from 0, that the unit with the given offset belongs to. -/
def indexAt (encoding : Encoding) : Text → Nat → Nat
  | [], units => units
  | c :: s, units =>
    if encoding.width c ≤ units then 1 + encoding.indexAt s (units - encoding.width c) else 0

theorem width_pos (encoding : Encoding) (c : Char) : 0 < encoding.width c := by
  cases encoding with
  | utf16 => simp only [width]; split <;> omega
  | utf32 => exact Nat.one_pos

/-- The character at the offset of a character is that character. -/
theorem indexAt_offset (encoding : Encoding) (s : Text) (n : Nat) :
    encoding.indexAt s (encoding.offset s n) = n := by
  induction s generalizing n with
  | nil => cases n <;> rfl
  | cons c s ih =>
    have := encoding.width_pos c
    cases n with
    | zero => simp [offset, indexAt, Nat.not_le.2 this]
    | succ n => simp [offset, indexAt, ih, Nat.add_comm]

end Encoding

/-- A document as a client with the given encoding sees it. -/
structure ClientView where
  doc : Document
  encoding : Encoding

namespace ClientView

/-- The position that the client names. -/
def position (view : ClientView) (p : ClientPosition) : Position :=
  let line := p.line.toNat + 1
  ⟨line, view.encoding.indexAt (view.doc.line line) p.character.toNat + 1⟩

/-- The client's name for a position. -/
def clientPosition (view : ClientView) (p : Position) : ClientPosition :=
  let characters := p.toClient.character.toNat
  ⟨p.toClient.line, .ofNat (view.encoding.offset (view.doc.line p.line) characters)⟩

/-- The client's name for a range. -/
def clientRange (view : ClientView) (r : Range) : ClientRange :=
  ⟨view.clientPosition r.start, view.clientPosition r.stop⟩

/-- Turns a range whose offsets count characters into the client's. -/
def reencode (view : ClientView) (r : ClientRange) : ClientRange :=
  ⟨view.clientPosition r.start.toPosition, view.clientPosition r.stop.toPosition⟩

/-- The client's range for one whose offsets count characters: itself if the client counts them too. -/
def encoded (view : ClientView) (r : ClientRange) : ClientRange :=
  if view.encoding = .utf32 then r else view.reencode r

end ClientView

end ProxyConfig

import ProxyConfig.Json
import ProxyConfig.Position

/-! # Client positions

An editor counts lines and offsets from 0 in 32 bits. A position is carried over by taking one off
each coordinate, where 0 stays 0 and a coordinate that does not fit keeps its low 32 bits; it is
carried back by adding one. Offsets count characters here; `ProxyConfig.Client.Encoding` says how
they are counted in other units.
-/

namespace ProxyConfig

/-- A point of a document as an editor names it. -/
structure ClientPosition where
  line : UInt32
  character : UInt32
deriving DecidableEq

/-- A stretch of a document as an editor names it. -/
structure ClientRange where
  start : ClientPosition
  stop : ClientPosition
deriving DecidableEq

/-- The position in the client's coordinates, the offset counting characters. -/
def Position.toClient (p : Position) : ClientPosition :=
  ⟨.ofNat (p.line - 1), .ofNat (p.column - 1)⟩

/-- The range in the client's coordinates, the offsets counting characters. -/
def Range.toClient (r : Range) : ClientRange := ⟨r.start.toClient, r.stop.toClient⟩

namespace ClientPosition

/-- The position that a client names when its offsets count characters. -/
def toPosition (p : ClientPosition) : Position := ⟨p.line.toNat + 1, p.character.toNat + 1⟩

theorem toClient_toPosition (p : ClientPosition) : p.toPosition.toClient = p := by
  simp [toPosition, Position.toClient]

def toJson (p : ClientPosition) : Json :=
  .object [("line", .ofNat p.line.toNat), ("character", .ofNat p.character.toNat)]

/-- A 32-bit coordinate. -/
def coordinate? (json : Json) : Option UInt32 := (json.natBelow? UInt32.size).map .ofNat

def ofJson? (json : Json) : Option ClientPosition := do
  match ← json.parts? ["line", "character"] with
  | [some line, some character] => some ⟨← coordinate? line, ← coordinate? character⟩
  | _ => none

end ClientPosition

namespace ClientRange

def toJson (r : ClientRange) : Json :=
  .object [("start", r.start.toJson), ("end", r.stop.toJson)]

def ofJson? (json : Json) : Option ClientRange := do
  match ← json.parts? ["start", "end"] with
  | [some start, some stop] => some ⟨← ClientPosition.ofJson? start, ← ClientPosition.ofJson? stop⟩
  | _ => none

end ClientRange

end ProxyConfig

import ProxyConfig.Text.Blank

/-! # Readers

A reader takes a value off the front of a text and leaves the rest, or fails. `p <|> q` tries `q` on
the same text if `p` fails, so the grammars that use it are read off their alternatives.
-/

namespace ProxyConfig

/-- Takes a value off the front of a text, or fails. -/
abbrev Reader := StateT Text Option

namespace Reader

variable {α β : Type}

/-- One character that passes the test. -/
def one (test : Char → Bool) : Reader Char
  | [] => none
  | c :: rest => if test c then some (c, rest) else none

/-- The given character. -/
def char (c : Char) : Reader Char := one (· == c)

/-- The given word. -/
def word (s : String) : Reader Unit := s.toList.forM fun c => discard (char c)

/-- The characters up to the first that fails the test. -/
def takeWhile (test : Char → Bool) : Reader Text := fun s => some (s.span test)

/-- Reads nothing if the reader fails. -/
def maybe (p : Reader α) : Reader (Option α) := some <$> p <|> pure none

/-- Repeats a reader until it fails or takes nothing, on a given text. -/
def manyOf (p : Reader α) (s : Text) : List α × Text :=
  match p s with
  | none => ([], s)
  | some (a, rest) =>
    if rest.length < s.length then
      let (others, rest) := manyOf p rest
      (a :: others, rest)
    else ([], s)
termination_by s.length

/-- Repeats a reader until it fails or takes nothing. -/
def many (p : Reader α) : Reader (List α) := fun s => some (manyOf p s)

/-- Items with a separator between each two; there is at least one. -/
def separated (item : Reader α) (separator : Char) : Reader (List α) := do
  let first ← item
  let others ← many (char separator *> item)
  return first :: others

/-- The given number of characters that pass the test. -/
def exactly (test : Char → Bool) : Nat → Reader Text
  | 0 => pure []
  | n + 1 => do
    let c ← one test
    let rest ← exactly test n
    return c :: rest

/-- The text that a reader takes. -/
def spelling (p : Reader α) : Reader Text := fun s =>
  (p s).map fun (_, rest) => (s.take (s.length - rest.length), rest)

/-- The value of a reader that takes the whole text. -/
def run? (p : Reader α) (s : Text) : Option α :=
  match p s with
  | some (a, []) => some a
  | _ => none

end Reader

end ProxyConfig

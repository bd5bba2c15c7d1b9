import ProxyConfig.Text.Cut

/-! # Glob patterns

A pattern is cut at its slashes. In each part `?` stands for one character, `*` for any number of them,
and a class in brackets for one character in, or with `!` not in, its ranges. The part `**` stands for
any number of directories; more than one star anywhere else is an error, and so is a bracket that is not
closed.
-/

namespace ProxyConfig

namespace Glob

/-- What one part of a pattern is made of. -/
inductive Token where
  | char (c : Char)
  | anyChar
  | anyText
  /-- One character of a class; ends of a range belong to it. -/
  | oneOf (excluded : Bool) (ranges : List (Char × Char))
deriving DecidableEq

/-- The ranges of a class. A single character is a range of its own. -/
def ranges : Text → List (Char × Char)
  | low :: '-' :: high :: rest => (low, high) :: ranges rest
  | c :: rest => (c, c) :: ranges rest
  | [] => []

/-- Reads a class behind its opening bracket. It has at least one character, so a closing bracket that
comes first belongs to it. -/
def class? : Text → Option (Token × Text)
  | '!' :: first :: rest =>
    (Text.cut? ']' rest).map fun (inside, after) => (.oneOf true (ranges (first :: inside)), after)
  | '!' :: [] => none
  | first :: rest =>
    (Text.cut? ']' rest).map fun (inside, after) => (.oneOf false (ranges (first :: inside)), after)
  | [] => none

theorem length_of_class? {s rest : Text} {token : Token} (h : class? s = some (token, rest)) :
    rest.length < s.length := by
  unfold class? at h
  split at h
  all_goals try contradiction
  all_goals
    simp only [Option.map_eq_some_iff, Prod.mk.injEq] at h
    obtain ⟨⟨inside, after⟩, found, -, rfl⟩ := h
    simp only [Text.append_of_cut? found, List.length_cons, List.length_append]
    omega

/-- Reads a part of a pattern. -/
def tokens? (s : Text) : Option (List Token) :=
  match s with
  | [] => some []
  | '?' :: rest => (tokens? rest).map (.anyChar :: ·)
  | '*' :: '*' :: _ => none
  | '*' :: rest => (tokens? rest).map (.anyText :: ·)
  | '[' :: rest =>
    match found : class? rest with
    | none => none
    | some (token, after) =>
      have := length_of_class? found
      (tokens? after).map (token :: ·)
  | c :: rest => (tokens? rest).map (.char c :: ·)
termination_by s.length

/-- Whether a token that stands for one character admits the character. -/
def Token.admits : Token → Char → Bool
  | char d, c => c == d
  | oneOf excluded ranges, c => ranges.any (fun (low, high) => low ≤ c && c ≤ high) != excluded
  | anyChar, _ | anyText, _ => true

/-- Whether a name matches a part of a pattern. -/
def isMatch : List Token → Text → Bool
  | [], name => name.isEmpty
  | .anyText :: tokens, name =>
    (List.range (name.length + 1)).any fun n => isMatch tokens (name.drop n)
  | token :: tokens, c :: name => token.admits c && isMatch tokens name
  | _ :: _, [] => false

/-- A part of a pattern. -/
inductive Part where
  | name (name : String)
  | wild (tokens : List Token)
  | anyDepth
deriving DecidableEq

/-- The character that a token stands for if it stands for itself. -/
def Token.char? : Token → Option Char
  | char c => some c
  | _ => none

/-- Reads a part of a pattern. -/
def part? (s : Text) : Option Part :=
  if s = ['*', '*'] then some .anyDepth
  else
    (tokens? s).map fun tokens =>
      match tokens.mapM Token.char? with
      | some cs => .name (String.ofList cs)
      | none => .wild tokens

/-- Whether a file with the name matches the part. -/
def Part.admits : Part → String → Bool
  | name s, file => file == s
  | wild tokens, file => isMatch tokens file.toList
  | anyDepth, _ => false

end Glob

/-- A pattern for paths. -/
structure Glob where
  /-- Whether the pattern starts at the root. -/
  absolute : Bool
  parts : List Glob.Part
  /-- Whether only directories match, because a slash ends the pattern. -/
  directoriesOnly : Bool

/-- Reads a pattern. A slash at the end has no part behind it. -/
def Glob.parse? (s : Text) : Option Glob := do
  let absolute := s.head? == some '/'
  let inner := if absolute then s.tail else s
  let pieces := Text.pieces '/' (if inner.getLast? = some '/' then inner.dropLast else inner)
  some ⟨absolute, ← pieces.mapM part?, s.getLast? == some '/'⟩

end ProxyConfig

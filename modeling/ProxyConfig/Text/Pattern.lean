import ProxyConfig.Text.Blank

/-! # Patterns

A pattern is a row of parts that take texts off the front of a text, one behind the other. A run takes
as many characters as it can, and gives back one after the other until the parts behind it match.
-/

namespace ProxyConfig

/-- A part of a pattern. -/
inductive PatternPart where
  /-- One character that passes the test. -/
  | one (test : Char → Bool)
  /-- A run of at least so many characters that pass the test. -/
  | run (least : Nat) (test : Char → Bool)

namespace PatternPart

/-- A run at the front of a text, the longest in front of a text that `next` accepts, together with
what `next` says of that text. -/
def takeRun? (test : Char → Bool) (next : Text → Option (List Text)) :
    Nat → Text → Option (Text × List Text)
  | least, [] => if least = 0 then (next []).map ([], ·) else none
  | least, c :: s =>
    match if test c then takeRun? test next (least - 1) s else none with
    | some (front, others) => some (c :: front, others)
    | none => if least = 0 then (next (c :: s)).map ([], ·) else none

/-- The texts that the parts take off the front of a text. -/
def match? : List PatternPart → Text → Option (List Text)
  | [], _ => some []
  | one _ :: _, [] => none
  | one test :: parts, c :: s => if test c then (match? parts s).map ([c] :: ·) else none
  | run least test :: parts, s =>
    (takeRun? test (match? parts) least s).map fun (front, others) => front :: others

end PatternPart

end ProxyConfig

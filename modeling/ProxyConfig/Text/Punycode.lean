import ProxyConfig.Text.Digit

/-! # Punycode

A label of a domain may hold characters beyond ASCII and still travel as ASCII: its ASCII characters, a
hyphen if there are any, and then a number for each other character. The numbers say how to put the
others in, in the order of their code points and, for equal ones, of their places. A number counts the
steps from one insertion to the next, through all places of the label for each code point. It is written
in digits of base 36, the lowest first, of which each ends the number if it is below a threshold; the
thresholds follow the size of the numbers so far.
-/

namespace ProxyConfig.Text.Punycode

/-- The least digit that does not end a number behind `skipped` digits of it. -/
def threshold (bias skipped : Nat) : Nat := max 1 (min 26 (36 * (skipped + 1) - bias))

theorem threshold_pos (bias skipped : Nat) : 0 < threshold bias skipped := by
  unfold threshold
  omega

/-- The bias behind a number, by the damped size of the number. -/
def biasOf (size : Nat) : Nat :=
  if 455 < size then 36 + biasOf (size / 35) else 36 * size / (size + 38)
termination_by size
decreasing_by omega

/-- The state between two insertions: the place and the code point behind the latest one. -/
structure State where
  size : Nat
  place : Nat := 0
  point : Nat := 0x80
  bias : Nat := 72
  isFirst : Bool := true

namespace State

/-- The state behind an insertion that is `steps` further on. -/
def insert (s : State) (steps : Nat) : State :=
  let count := s.size + 1
  let damped := if s.isFirst then steps / 700 else steps / 2
  { size := count
    place := (s.place + steps) % count + 1
    point := s.point + (s.place + steps) / count
    bias := biasOf (damped + damped / count)
    isFirst := false }

/-- The steps to the insertion of a code point at a place. -/
def stepsTo (s : State) (point place : Nat) : Nat :=
  (point - s.point) * (s.size + 1) + place - s.place

end State

/-- The digits: the letters, and then the decimal digits. -/
def digits : Text := "abcdefghijklmnopqrstuvwxyz0123456789".toList

/-- A number behind `skipped` digits of it. -/
def encodeNumber (bias skipped n : Nat) : Text :=
  let least := threshold bias skipped
  if n < least then [digits.getD n 'a']
  else
    digits.getD (least + (n - least) % (36 - least)) 'a'
      :: encodeNumber bias (skipped + 1) ((n - least) / (36 - least))
termination_by n
decreasing_by
  have positive := threshold_pos bias skipped
  exact Nat.lt_of_le_of_lt (Nat.div_le_self _ _) (by omega)

/-- The numbers of insertions, each given by its character and its place. -/
def encodeInsertions (s : State) : List (Char × Nat) → Text
  | [] => []
  | (c, place) :: rest =>
    let steps := s.stepsTo c.toNat place
    encodeNumber s.bias 0 steps ++ encodeInsertions (s.insert steps) rest

/-- The insertions that lead from the ASCII characters of a label to the label. A character is put in
behind those before it in the label that have a code point up to its own. -/
def insertions (label : Text) : List (Char × Nat) :=
  let beyond := label.zipIdx.filter fun (c, _) => 0x80 ≤ c.toNat
  (beyond.mergeSort fun a b => a.1.toNat ≤ b.1.toNat).map fun (c, i) =>
    (c, (label.take i).countP fun earlier => earlier.toNat ≤ c.toNat)

/-- The ASCII form of a label. -/
def encode (label : Text) : Text :=
  let plain := label.filter fun c => c.toNat < 0x80
  (if plain.isEmpty then [] else plain ++ ['-'])
    ++ encodeInsertions { size := plain.length } (insertions label)

/-- Reads a number behind `skipped` digits of it, of which the next one counts `weight` times. -/
def decodeNumber? (bias skipped weight : Nat) : Text → Option (Nat × Text)
  | [] => none
  | c :: rest => do
    let digit ← digits.findIdx? (· == c)
    let least := threshold bias skipped
    if digit < least then some (digit * weight, rest)
    else
      let (n, rest) ← decodeNumber? bias (skipped + 1) (weight * (36 - least)) rest
      some (digit * weight + n, rest)

theorem length_lt_of_decodeNumber? {bias skipped weight n : Nat} {s rest : Text}
    (read : decodeNumber? bias skipped weight s = some (n, rest)) : rest.length < s.length := by
  induction s generalizing skipped weight n with
  | nil => simp [decodeNumber?] at read
  | cons c s ih =>
    simp only [decodeNumber?, bind, Option.bind_eq_some_iff] at read
    obtain ⟨digit, -, read⟩ := read
    split at read
    · simp_all
    · obtain ⟨⟨m, others⟩, later, same⟩ := Option.bind_eq_some_iff.1 read
      simp only [Option.some.injEq, Prod.mk.injEq] at same
      obtain ⟨-, rfl⟩ := same
      have := ih later
      simp only [List.length_cons]
      omega

/-- Puts the characters that numbers tell of into a label. -/
def decodeInsertions? (s : State) (label : Text) (numbers : Text) : Option Text :=
  if numbers.isEmpty then some label
  else
    match read : decodeNumber? s.bias 0 1 numbers with
    | none => none
    | some (steps, rest) =>
      let next := s.insert steps
      if next.point.isValidChar then
        decodeInsertions? next (label.insertIdx (next.place - 1) (Char.ofNat next.point)) rest
      else none
termination_by numbers.length
decreasing_by exact length_lt_of_decodeNumber? read

/-- The label that a text is the ASCII form of. The last hyphen ends the ASCII characters. -/
def decode? (s : Text) : Option Text :=
  let numbers := (s.reverse.takeWhile (· != '-')).reverse
  let plain := (s.take (s.length - numbers.length)).dropLast
  decodeInsertions? { size := plain.length } plain numbers

end ProxyConfig.Text.Punycode

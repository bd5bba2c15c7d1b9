import ProxyConfig.Text.Blank

/-! # Decimal numbers

A number is written in ASCII digits, leading zeros allowed. It is read into a range of integers, digit
by digit: the value so far times ten and the digit added to it have both to lie in the range, or nothing
is read. Digits behind a minus sign count downwards, so that the least integer of a range can be read.
-/

namespace ProxyConfig

namespace Text

/-- Whether the text is one or more ASCII digits. -/
def isDigits (s : Text) : Bool := !s.isEmpty && s.all Char.isDigit

/-- The value of a digit in its place. -/
def digitValue (c : Char) : Nat := c.toNat - '0'.toNat

/-- The number that a row of decimal digits writes. -/
def decimalValue (s : Text) : Nat := s.foldl (fun value c => 10 * value + digitValue c) 0

end Text

/-- A range of integers around zero, both ends included. -/
structure IntegerRange where
  least : Int
  greatest : Int
  least_le_zero : least ≤ 0 := by decide
  zero_le_greatest : 0 ≤ greatest := by decide

namespace IntegerRange

/-- The integers of 8 bits. -/
def unsigned8 : IntegerRange where
  least := 0
  greatest := 0xFF

/-- The integers of 32 bits. -/
def unsigned32 : IntegerRange where
  least := 0
  greatest := 0xFFFFFFFF

/-- The integers of 64 bits, one of which is the sign. -/
def signed64 : IntegerRange where
  least := -0x8000000000000000
  greatest := 0x7FFFFFFFFFFFFFFF

def contains (r : IntegerRange) (n : Int) : Bool := r.least ≤ n && n ≤ r.greatest

/-- The integer, if it lies in the range. -/
def keep? (r : IntegerRange) (n : Int) : Option Int := if r.contains n then some n else none

/-- The value with one more digit, which counts upwards or downwards. -/
def readDigit? (r : IntegerRange) (sign value : Int) (c : Char) : Option Int :=
  if c.isDigit then
    (r.keep? (value * 10)).bind fun tens => r.keep? (tens + sign * Text.digitValue c)
  else none

/-- The integer that one or more digits write. -/
def readDigits? (r : IntegerRange) (sign : Int) (digits : Text) : Option Int :=
  if digits.isEmpty then none else digits.foldlM (r.readDigit? sign) 0

/-- The integer that a text writes. A plus sign may stand in front of its digits, and a minus sign if
the range has integers below zero. -/
def read? (r : IntegerRange) : Text → Option Int
  | '+' :: digits => r.readDigits? 1 digits
  | '-' :: digits => if r.least < 0 then r.readDigits? (-1) digits else none
  | digits => r.readDigits? 1 digits

end IntegerRange

namespace Text

/-- Whether the text writes an integer that fits 64 bits. -/
def isInteger64 (s : Text) : Bool := (IntegerRange.signed64.read? s).isSome

end Text

end ProxyConfig

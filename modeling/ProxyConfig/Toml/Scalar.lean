import ProxyConfig.Text.Digit
import ProxyConfig.Text.Reader
import ProxyConfig.Toml.Value
import ProxyConfig.Value.Decimal

/-! # TOML strings, numbers and dates

The values without parts, and the blanks, comments and line ends around them. Control characters other
than the tab stand nowhere, and a carriage return only in front of a line feed.
-/

namespace ProxyConfig.Toml.Grammar

open Reader

/-- A tab, or a character that is no control character. -/
def isPlain (c : Char) : Bool := c == '\t' || (0x20 ≤ c.toNat && c.toNat != 0x7F)

/-- Blanks inside a line. -/
def blanks : Reader Text := takeWhile fun c => c == ' ' || c == '\t'

/-- A line end. -/
def newline : Reader Unit := word "\n" <|> word "\r\n"

/-- A comment, its line end left out. -/
def comment : Reader Unit := do
  discard (char '#')
  discard (takeWhile isPlain)

/-- What may stand between the parts of an array: blanks, line ends and comments. -/
def gap : Reader Unit :=
  discard (many (discard (one fun c => c == ' ' || c == '\t') <|> newline <|> (comment *> newline)))

/-! ## Strings -/

/-- The character of a numbered escape with the given count of digits. -/
def numbered (count : Nat) : Reader Char := do
  let n := Text.numeral 16 (← exactly Text.isHexDigit count)
  if n.isValidChar then return Char.ofNat n else failure

/-- An escape in a string between double quotes. -/
def escape : Reader Char := do
  discard (char '\\')
  match ← one fun _ => true with
  | 'b' => return '\x08'
  | 'f' => return '\x0c'
  | 'n' => return '\n'
  | 'r' => return '\r'
  | 't' => return '\t'
  | 'u' => numbered 4
  | 'U' => numbered 8
  | '\\' => return '\\'
  | '"' => return '"'
  | _ => failure

/-- A string between double quotes, on one line. -/
def basicString : Reader Text := do
  discard (char '"')
  let text ← many (one (fun c => isPlain c && c != '"' && c != '\\') <|> escape)
  discard (char '"')
  return text

/-- A string between single quotes, on one line. -/
def literalString : Reader Text := do
  discard (char '\'')
  let text ← takeWhile fun c => isPlain c && c != '\''
  discard (char '\'')
  return text

/-- An escaped line end in a string over lines: it goes, with all blanks and line ends behind it. -/
def escapedNewline : Reader Text := do
  discard (char '\\')
  discard blanks
  newline
  discard (many (discard (one fun c => c == ' ' || c == '\t') <|> newline))
  return []

/-- One or two quotes that are not followed by another one. -/
def innerQuotes (quote : Char) : Reader Text := fun s =>
  let (quotes, rest) := s.span (· == quote)
  if quotes.length = 1 ∨ quotes.length = 2 then some (quotes, rest) else none

/-- A string over lines: three quotes, a first line end that does not count, the pieces, and up to
two quotes more in front of the closing three. -/
def longString (quote : Char) (piece : Reader Text) : Reader Text := do
  word (String.ofList [quote, quote, quote])
  discard (maybe newline)
  let pieces ← many (piece <|> pure ['\n'] <* newline <|> innerQuotes quote)
  let closing ← takeWhile (· == quote)
  if 3 ≤ closing.length ∧ closing.length ≤ 5 then return pieces.flatten ++ closing.drop 3
  else failure

def longBasicString : Reader Text :=
  longString '"' (escapedNewline <|> (fun c => [c]) <$> escape
    <|> (fun c => [c]) <$> one fun c => isPlain c && c != '"' && c != '\\')

def longLiteralString : Reader Text :=
  longString '\'' ((fun c => [c]) <$> one fun c => isPlain c && c != '\'')

def string : Reader Text := longBasicString <|> basicString <|> longLiteralString <|> literalString

/-! ## Numbers -/

/-- Digits, with single underscores between them. -/
def grouped (test : Char → Bool) : Reader Text := do
  let first ← one test
  let others ← many (one test <|> (char '_' *> one test))
  return first :: others

/-- A sign; without one it is plus. -/
def sign : Reader Bool := do
  return (← maybe (one fun c => c == '+' || c == '-')) == some '-'

/-- The digits of a decimal integer: a zero stands alone. -/
def decimalDigits : Reader Text := pure ['0'] <* char '0' <|> grouped Char.isDigit

/-- An integer in hexadecimal, octal or binary digits. It has no sign. -/
def basedInteger (mark : String) (base : Nat) (test : Char → Bool) : Reader Int := do
  word mark
  return Text.numeral base (← grouped test)

def decimalInteger : Reader Int := do
  let negative ← sign
  let n : Int := Text.numeral 10 (← decimalDigits)
  return if negative then -n else n

/-- A signed 64-bit integer. -/
def integer : Reader Int := do
  let n ← basedInteger "0x" 16 Text.isHexDigit
    <|> basedInteger "0o" 8 (fun c => '0' ≤ c && c ≤ '7')
    <|> basedInteger "0b" 2 (fun c => c == '0' || c == '1')
    <|> decimalInteger
  if IntegerRange.signed64.contains n then return n else failure

/-- Whether `digits · 10 ^ exponent` lies beyond the numbers of 64 bits, so that the nearest of them
is infinity. -/
def overflows (digits : Nat) (exponent : Int) : Bool :=
  let bound := Nat.pow 2 1024 - Nat.pow 2 970
  let size := (Nat.toDigits 10 digits).length + exponent
  if digits = 0 then false
  else if size < 309 then false
  else if 309 < size then true
  else bound * Nat.pow 10 (-exponent).toNat ≤ digits * Nat.pow 10 exponent.toNat

/-- The exponent of a float. -/
def exponent : Reader Int := do
  discard (one fun c => c == 'e' || c == 'E')
  let negative ← sign
  let n : Int := Text.numeral 10 (← grouped Char.isDigit)
  return if negative then -n else n

/-- A number with a fraction, an exponent, or both. It must not be too large, though it may be too
small. -/
def decimalFloat : Reader Unit := do
  let negative ← sign
  let whole ← decimalDigits
  let fraction ← maybe (char '.' *> grouped Char.isDigit)
  let power ← maybe exponent
  if fraction.isNone ∧ power.isNone then failure
  let places := fraction.getD []
  let digits := Text.numeral 10 (whole ++ places)
  if !negative && overflows digits (power.getD 0 - places.length) then failure

/-- A float, `inf` or `nan`. -/
def float : Reader Text :=
  spelling (decimalFloat <|> (sign *> (word "inf" <|> word "nan")))

/-! ## Dates and times -/

/-- A number of so many digits in the given bounds. -/
def bounded (count low high : Nat) : Reader Nat := do
  let n := Text.numeral 10 (← exactly Char.isDigit count)
  if low ≤ n ∧ n ≤ high then return n else failure

/-- The days of a month. -/
def daysIn (year month : Nat) : Nat :=
  let isLeap := year % 4 = 0 ∧ (year % 100 ≠ 0 ∨ year % 400 = 0)
  match month with
  | 2 => if isLeap then 29 else 28
  | 4 | 6 | 9 | 11 => 30
  | _ => 31

/-- A day of the calendar. -/
def date : Reader Unit := do
  let year ← bounded 4 0 9999
  discard (char '-')
  let month ← bounded 2 1 12
  discard (char '-')
  discard (bounded 2 1 (daysIn year month))

/-- A time of day; a second may be a leap second. -/
def time : Reader Unit := do
  discard (bounded 2 0 23)
  discard (char ':')
  discard (bounded 2 0 59)
  discard (char ':')
  discard (bounded 2 0 60)
  discard (maybe (char '.' *> one Char.isDigit *> takeWhile Char.isDigit))

/-- The distance from universal time. -/
def zone : Reader Unit :=
  discard (one fun c => c == 'Z' || c == 'z') <|> do
    discard (one fun c => c == '+' || c == '-')
    discard (bounded 2 0 23)
    discard (char ':')
    discard (bounded 2 0 59)

/-- A date, a time, or both with or without a zone. -/
def moment : Reader Text :=
  spelling ((do
    date
    discard (maybe (do
      discard (one fun c => c == 'T' || c == 't' || c == ' ')
      time
      discard (maybe zone)))) <|> time)

/-- A value without parts. -/
def scalar : Reader Toml :=
  Toml.string <$> string
    <|> Toml.moment <$> moment <|> Toml.float <$> float <|> Toml.integer <$> integer
    <|> pure (.boolean true) <* word "true" <|> pure (.boolean false) <* word "false"

end ProxyConfig.Toml.Grammar

/-! # Blank characters

A document is read as a list of Unicode scalar values, and blanks are the characters of Unicode's
`White_Space` property. Every trim of the library, and the header grammar, uses this one class.
-/

namespace ProxyConfig

/-- A piece of a document, one `Char` for each Unicode scalar value. -/
abbrev Text := List Char

/-- The characters of Unicode's `White_Space` property. Zero-width spaces, the byte order mark and
the information separators are not among them. -/
def isBlank (c : Char) : Bool :=
  let n := c.toNat
  (0x9 ≤ n && n ≤ 0xD) || n == 0x20 || n == 0x85 || n == 0xA0 || n == 0x1680
    || (0x2000 ≤ n && n ≤ 0x200A) || n == 0x2028 || n == 0x2029 || n == 0x202F || n == 0x205F
    || n == 0x3000

/-- Every blank that core's ASCII class knows is a blank here. -/
theorem isBlank_of_isWhitespace {c : Char} (white : c.isWhitespace = true) : isBlank c = true := by
  simp only [Char.isWhitespace, Bool.or_eq_true, decide_eq_true_eq] at white
  rcases white with ((rfl | rfl) | rfl) | rfl <;> decide

namespace Text

/-- The text without its leading blanks. -/
def trimStart (s : Text) : Text := s.dropWhile isBlank

/-- The text without its trailing blanks. -/
def trimEnd (s : Text) : Text := (s.reverse.dropWhile isBlank).reverse

/-- Whether the text holds nothing but blanks. -/
def allBlank (s : Text) : Bool := s.all isBlank

end Text

end ProxyConfig

import ProxyConfig.Text.Cut
import ProxyConfig.Text.Fold
import ProxyConfig.Text.Punycode

/-! # Domains

A domain is a row of labels between dots, in folded characters. It travels as ASCII: a label with other
characters is written as `xn--` and its Punycode. A label that is written so by the client has to be the
Punycode of a label that needs it.
-/

namespace ProxyConfig.Uri

/-- An ASCII character that no domain has: a control, a blank or a delimiter. -/
def isForbidden (c : Char) : Bool :=
  c.toNat ≤ 0x20 || c.toNat == 0x7F || "%#/:<>?@[\\]^|".toList.contains c

/-- Characters without a form of their own, which make no difference to a domain: soft hyphens,
joiners of words and selectors of variants. -/
def isInvisible (c : Char) : Bool :=
  let n := c.toNat
  n == 0xAD || n == 0x34F || (0x180B ≤ n && n ≤ 0x180F) || n == 0x200B || n == 0x2060 || n == 0x2064
    || (0xFE00 ≤ n && n ≤ 0xFE0F) || n == 0xFEFF || (0xE0100 ≤ n && n ≤ 0xE01EF)

/-- Characters beyond ASCII that no label has: controls, blanks, signs of the layout, what is no
character, and what is for private use. -/
def isUnfit (c : Char) : Bool :=
  let n := c.toNat
  (0x80 ≤ n && (n ≤ 0x9F || isBlank c)) || (0x200C ≤ n && n ≤ 0x200F) || (0x202A ≤ n && n ≤ 0x202E)
    || (0x2061 ≤ n && n ≤ 0x206F) || (0xE000 ≤ n && n ≤ 0xF8FF) || (0xFDD0 ≤ n && n ≤ 0xFDEF)
    || (0xFFF9 ≤ n && n ≤ 0xFFFF) || 0xFFFE ≤ n % 0x10000 || 0xE0000 ≤ n

/-- A mark that combines with the character before it. -/
def isMark (c : Char) : Bool :=
  let n := c.toNat
  (0x300 ≤ n && n ≤ 0x36F) || (0x483 ≤ n && n ≤ 0x489) || (0x1AB0 ≤ n && n ≤ 0x1AFF)
    || (0x1DC0 ≤ n && n ≤ 0x1DFF) || (0x20D0 ≤ n && n ≤ 0x20FF) || (0x3099 ≤ n && n ≤ 0x309A)
    || (0xFE20 ≤ n && n ≤ 0xFE2F)

/-- Whether the characters of a folded label make a label. -/
def isLabel (label : Text) : Bool :=
  !label.head?.any isMark && label.all fun c => !(isUnfit c || isInvisible c)

/-- What a label in ASCII starts with if it stands for one with other characters. -/
def codedMark : Text := "xn--".toList

/-- Whether a text behind the mark of a coded label is the code of a label that needs one. -/
def isCode (code : Text) : Bool :=
  (Text.Punycode.decode? code).any fun label =>
    isLabel label && label.map foldChar == label && label.any fun c => 0x80 ≤ c.toNat

/-- A folded label as it travels. -/
def asciiLabel? (label : Text) : Option Text :=
  let isAscii := label.all fun c => c.toNat < 0x80
  if codedMark.isPrefixOf label then
    if isAscii && isCode (label.drop codedMark.length) then some label else none
  else if isAscii then some label
  else if isLabel label then some (codedMark ++ Text.Punycode.encode label)
  else none

/-- A domain as it travels. -/
def domain? (s : Text) : Option Text := do
  let folded := (s.filter fun c => !isInvisible c).map foldChar
  if folded.any isForbidden then none
  else some (['.'].intercalate (← (Text.pieces '.' folded).mapM asciiLabel?))

end ProxyConfig.Uri

import ProxyConfig.Issue
import ProxyConfig.Text.Span
import ProxyConfig.Value.Address

/-! # Checks of single values

Each check looks at one span of a line and reports nothing if the value is good.
-/

namespace ProxyConfig.Span

/-- A port is a number of digits alone that is at most 65535. Digits that no 32 bits hold are out of
range like those of any other number beyond. -/
def checkPort (span : Span) (line : Nat) : Option Diagnostic :=
  if !span.text.isDigits then some (Issue.invalidPort.on (span.range line))
  else if (IntegerRange.unsigned32.read? span.text).any fun port => port ≤ 65535 then none
  else some (Issue.portOutOfRange.on (span.range line))

/-- Only `true` and `false` say what they seem to; words that look like `true` get a hint. Case does
not matter for the hint, and no letter but an ASCII one has a lower case that occurs in those words. -/
def checkBoolean (span : Span) (line : Nat) : Option Diagnostic :=
  if isListed ["true", "false"] span.text then none
  else
    let meantTrue := isListed truthySynonyms (span.text.map Char.toLower)
    some ((Issue.notBoolean meantTrue).on (span.range line))

def checkInteger (span : Span) (line : Nat) : Option Diagnostic :=
  if span.text.isInteger64 then none else some (Issue.notInteger.on (span.range line))

def checkAddress (span : Span) (line : Nat) : Option Diagnostic :=
  if span.text.isAddress then none else some (Issue.invalidAddress.on (span.range line))

end ProxyConfig.Span

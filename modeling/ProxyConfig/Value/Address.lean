import ProxyConfig.Text.Cut
import ProxyConfig.Text.Digit
import ProxyConfig.Value.Decimal

/-! # IP addresses and networks

An IPv4 address is four octets; an octet has at most three digits and no leading zero. An IPv6
address is eight groups of one to four hexadecimal digits between colons. A dotted IPv4 address may
take the place of the last two groups, and one `::` stands for one or more groups of zeros.
-/

namespace ProxyConfig

/-- The two kinds of IP addresses. -/
inductive AddressFamily where
  | v4
  | v6
deriving DecidableEq

/-- The number of bits of an address. -/
def AddressFamily.bits : AddressFamily → Nat
  | v4 => 32
  | v6 => 128

namespace Text

/-- Whether the text is an octet of a dotted address. -/
def isOctet (s : Text) : Bool :=
  s.isDigits && s.length ≤ 3 && s.decimalValue ≤ 255 && (s.length == 1 || s.head? != some '0')

/-- Whether the text is an IPv4 address. -/
def isDottedQuad (s : Text) : Bool :=
  let octets := pieces '.' s
  octets.length == 4 && octets.all isOctet

/-- Whether the text is one group of an IPv6 address. -/
def isHexGroup (s : Text) : Bool := !s.isEmpty && s.length ≤ 4 && s.all isHexDigit

/-- The two groups that a dotted address takes the place of. -/
def dottedGroups? (s : Text) : Option (List UInt16) :=
  if isDottedQuad s then
    match (pieces '.' s).map decimalValue with
    | [a, b, c, d] => some [.ofNat (a * 256 + b), .ofNat (c * 256 + d)]
    | _ => none
  else none

/-- The group that a text writes. -/
def hexGroup? (s : Text) : Option UInt16 :=
  if isHexGroup s then some (.ofNat (numeral 16 s)) else none

/-- The groups that a list of pieces between colons writes. A dotted address may end the list if
`dotted` says so. -/
def groups? (dotted : Bool) : List Text → Option (List UInt16)
  | [] => some []
  | [last] =>
    match hexGroup? last with
    | some group => some [group]
    | none => if dotted then dottedGroups? last else none
  | group :: rest => do some ((← hexGroup? group) :: (← groups? dotted rest))

/-- The groups that a part of an address next to `::` writes; an empty part writes none. -/
def partGroups? (dotted : Bool) (s : Text) : Option (List UInt16) :=
  if s.isEmpty then some [] else groups? dotted (pieces ':' s)

/-- The text before and after the first `::`. -/
def cutAtGap? : Text → Option (Text × Text)
  | [] => none
  | ':' :: ':' :: s => some ([], s)
  | c :: s => (cutAtGap? s).map fun (before, after) => (c :: before, after)

/-- The eight groups of an IPv6 address. Before `::` there is no dotted address. -/
def colonGroups? (s : Text) : Option (List UInt16) := do
  match cutAtGap? s with
  | none =>
    let groups ← groups? true (pieces ':' s)
    if groups.length = 8 then some groups else none
  | some (before, after) =>
    let before ← partGroups? false before
    let after ← partGroups? true after
    let written := before.length + after.length
    if written ≤ 7 then some (before ++ List.replicate (8 - written) 0 ++ after) else none

/-- Whether the text is an IPv6 address. -/
def isColonAddress (s : Text) : Bool := (colonGroups? s).isSome

/-- The kind of address that the text is, if it is one. -/
def addressFamily? (s : Text) : Option AddressFamily :=
  if isDottedQuad s then some .v4 else if isColonAddress s then some .v6 else none

def isAddress (s : Text) : Bool := (addressFamily? s).isSome

/-- Whether the text is an address, a slash, and a number of bits that the address has. -/
def isNetwork (s : Text) : Bool :=
  match cut? '/' s with
  | none => false
  | some (address, bits) =>
    match addressFamily? address with
    | none => false
    | some family =>
      bits.isDigits && (IntegerRange.unsigned8.read? bits).any fun n => n ≤ (family.bits : Int)

end Text

end ProxyConfig

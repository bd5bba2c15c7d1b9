import ProxyConfig.Client.Uri.Domain
import ProxyConfig.Client.Uri.Escape
import ProxyConfig.Value.Address

/-! # Hosts

A host is an IPv6 address between brackets or a name. Where names are those of domains, a name whose
last label is a number has to be an IPv4 address. Such an address has up to four parts, the last of which
fills the bytes that the others leave; a part is octal behind a `0` and hexadecimal behind a `0x`.
-/

namespace ProxyConfig.Uri

/-- Where the resource of a URI is. -/
inductive Host where
  | named (name : Text)
  | v4 (address : UInt32)
  | v6 (groups : List UInt16)
deriving DecidableEq

/-- The number that digits write in a base. No digits write nothing. -/
def numberIn? (base : Nat) (digits : Text) : Option Nat :=
  if digits.all fun c => Text.isHexDigit c && Text.hexDigitValue c < base then
    some (Text.numeral base digits)
  else none

/-- The number that a part of an IPv4 address writes. -/
def partNumber? : Text → Option Nat
  | [] => none
  | '0' :: c :: rest => if c = 'x' ∨ c = 'X' then numberIn? 16 rest else numberIn? 8 (c :: rest)
  | digits => numberIn? 10 digits

/-- The labels of a domain, of which a last empty one does not count. -/
def labels (domain : Text) : List Text :=
  let labels := Text.pieces '.' domain
  if labels.getLast? = some [] then labels.dropLast else labels

/-- Whether a domain has to be an IPv4 address. -/
def endsInNumber (domain : Text) : Bool :=
  (labels domain).getLast?.any fun last => last.isDigits || (partNumber? last).isSome

/-- The IPv4 address that a domain writes. -/
def v4Address? (domain : Text) : Option UInt32 := do
  let parts ← (labels domain).mapM partNumber?
  let bytes := parts.dropLast
  let last ← parts.getLast?
  let room := Nat.pow 256 (4 - bytes.length)
  if bytes.length ≤ 3 && bytes.all (· ≤ 255) && last < room then
    some (.ofNat (bytes.foldl (fun n byte => n * 256 + byte) 0 * room + last))
  else none

namespace Host

/-- The name of the host that a file address is read on. -/
def localName : Text := "localhost".toList

/-- The IPv6 address behind an opening bracket. -/
def ofBrackets? (s : Text) : Option Host :=
  if s.getLast? = some ']' then (Text.colonGroups? s.dropLast).map .v6 else none

/-- Reads a host where names are those of domains. They may be percent-encoded. -/
def ofDomain? : Text → Option Host
  | '[' :: rest => ofBrackets? rest
  | s => do
    let decoded ← String.fromUTF8? ⟨(Text.percentDecode s).toArray⟩
    let domain ← domain? decoded.toList
    if domain.isEmpty then none
    else if endsInNumber domain then (v4Address? domain).map .v4
    else some (.named domain)

/-- Reads a host where any name will do. -/
def ofName? : Text → Option Host
  | '[' :: rest => ofBrackets? rest
  | s =>
    if s.any fun c => c == '\x00' || " #/:<>?@[\\]^|".toList.contains c then none
    else some (.named (escape "" s))

/-- How many groups at the start are zero. -/
def zeros (groups : List UInt16) : Nat := (groups.takeWhile (· = 0)).length

/-- The longest row of zeros, the first of several: its start and its length. -/
def longestZeros (groups : List UInt16) : Nat × Nat :=
  (List.range groups.length).foldl (fun best i =>
    let length := zeros (groups.drop i)
    if best.2 < length then (i, length) else best) (0, 0)

/-- Groups between colons, without leading zeros. -/
def renderGroups (groups : List UInt16) : Text :=
  [':'].intercalate (groups.map fun group => Nat.toDigits 16 group.toNat)

/-- The text of a host. The longest row of two or more groups of zeros is written as `::`. -/
def render : Host → Text
  | named name => name
  | v4 address =>
    let byte (weight : Nat) : Text := Nat.toDigits 10 (address.toNat / weight % 256)
    ['.'].intercalate [byte 0x1000000, byte 0x10000, byte 0x100, byte 1]
  | v6 groups =>
    let (start, length) := longestZeros groups
    let text :=
      if length < 2 then renderGroups groups
      else renderGroups (groups.take start) ++ "::".toList ++ renderGroups (groups.drop (start + length))
    '[' :: text ++ [']']

end Host

end ProxyConfig.Uri

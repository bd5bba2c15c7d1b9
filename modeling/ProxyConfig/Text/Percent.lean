import ProxyConfig.Text.Digit

/-! # Percent encoding

In an address a character may be written as the bytes of its UTF-8 form, each as a percent sign and two
hexadecimal digits. A percent sign without two such digits behind it stands for itself.
-/

namespace ProxyConfig.Text

/-- The bytes of a character in UTF-8. -/
def bytesOf (c : Char) : List UInt8 := (String.singleton c).toUTF8.toList

/-- Writes a byte behind a percent sign. -/
def percentByte (byte : UInt8) : Text :=
  let digit (n : Nat) : Char := "0123456789ABCDEF".toList.getD n '0'
  ['%', digit (byte.toNat / 16), digit (byte.toNat % 16)]

/-- Writes the given characters as their bytes and leaves the others as they are. -/
def percentEncode (encoded : Char → Bool) (s : Text) : Text :=
  s.flatMap fun c => if encoded c then (bytesOf c).flatMap percentByte else [c]

/-- The bytes that a text with encoded characters stands for. -/
def percentDecode : Text → List UInt8
  | [] => []
  | '%' :: high :: low :: rest =>
    if isHexDigit high && isHexDigit low then
      .ofNat (numeral 16 [high, low]) :: percentDecode rest
    else bytesOf '%' ++ percentDecode (high :: low :: rest)
  | c :: rest => bytesOf c ++ percentDecode rest

end ProxyConfig.Text

import ProxyConfig.Text.Percent

/-! # Characters of a URI

Controls and characters beyond ASCII are percent-encoded everywhere in a URI, and each part of it has
delimiters that are encoded as well. What is encoded already stays as it is.
-/

namespace ProxyConfig.Uri

/-- A control character or one beyond ASCII. Neither may stand in a URI. -/
def isForeign (c : Char) : Bool := c.toNat < 0x20 || 0x7E < c.toNat

/-- Encodes what may not stand in a part of a URI, the delimiters of that part among it. -/
def escape (delimiters : String) (s : Text) : Text :=
  s.percentEncode fun c => isForeign c || delimiters.toList.contains c

def fragmentDelimiters : String := " \"<>`"

def queryDelimiters : String := " \"#<>"

def pathDelimiters : String := fragmentDelimiters ++ "#?\x7b\x7d"

/-- The delimiters in the name and the password of a user. -/
def userDelimiters : String := pathDelimiters ++ "/:;=@[\\]^|"

end ProxyConfig.Uri

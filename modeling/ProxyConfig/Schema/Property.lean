import ProxyConfig.Text.Blank

/-! # Property values

What the value of a `key=value` property has to be, in proxies and in groups.
-/

namespace ProxyConfig

/-- The kind of value that a property takes. -/
inductive ValueKind where
  /-- One of `aeadCiphers`. -/
  | cipher
  /-- One of `groupMethods`. -/
  | method
  /-- `true` or `false`. -/
  | boolean
  /-- A signed 64-bit integer. -/
  | integer
  /-- The name of a proxy or a proxy group. -/
  | actor
  | freeForm
deriving DecidableEq

/-- The ciphers that `encrypt-method` accepts. -/
def aeadCiphers : List String :=
  ["chacha20-poly1305", "chacha20-ietf-poly1305", "aes-128-gcm", "aes-256-gcm",
    "xchacha20-poly1305", "xchacha20-ietf-poly1305"]

/-- The values of the group property `method`. -/
def groupMethods : List String := ["random", "random-once", "rr"]

/-- Values that were probably meant to say `true`. -/
def truthySynonyms : List String := ["true", "on", "yes", "1", "enable", "enabled", "allow"]

/-- Whether a text of the document is one of the listed words. -/
def isListed (words : List String) (s : Text) : Bool := words.any fun word => word.toList == s

end ProxyConfig

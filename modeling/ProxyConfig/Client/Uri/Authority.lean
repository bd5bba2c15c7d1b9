import ProxyConfig.Client.Uri.Host

/-! # Authorities

The authority of a URI names a user, a host and a port. All of them may be missing, but there is no user
and no port without a host, and in the schemes of the web there is always a host. The port that goes
without saying for a scheme is left out.
-/

namespace ProxyConfig.Uri

/-- Splits off what stands behind the first `d`. -/
def splitOff (d : Char) (s : Text) : Text × Option Text :=
  match s.cut? d with
  | some (before, after) => (before, some after)
  | none => (s, none)

/-- Who asks for the resource of a URI, and where. A password may be empty like a user. -/
structure Authority where
  user : Text := []
  password : Text := []
  host : Option Host := none
  port : Option Nat := none
deriving DecidableEq

namespace Authority

/-- Splits off a user before the last `@`. -/
def splitUser (s : Text) : Option Text × Text :=
  match Text.cut? '@' s.reverse with
  | some (after, before) => (some before.reverse, after.reverse)
  | none => (none, s)

/-- Splits a text before the first colon that is not between brackets. -/
def splitPort (inBrackets : Bool) : Text → Text × Text
  | [] => ([], [])
  | c :: rest =>
    if c = ':' && !inBrackets then ([], c :: rest)
    else
      let (host, port) := splitPort (c == '[' || inBrackets && c != ']') rest
      (c :: host, port)

/-- Reads a port with its colon, up to a backslash. Without digits there is no port. -/
def readPort? : Text → Option (Option Nat × Text)
  | ':' :: s =>
    let digits : Text := s.takeWhile Char.isDigit
    let rest := s.dropWhile Char.isDigit
    if digits.decimalValue ≤ 0xFFFF && (rest.isEmpty || rest.head? == some '\\') then
      some (if digits.isEmpty then none else some digits.decimalValue, rest)
    else none
  | s => some (none, s)

/-- Reads an authority, and says what is left of it. A lone `@` has nothing behind it in the whole URI,
which is what `isEnd` says. -/
def read? (readHost : Text → Option Host) (isEnd : Bool) (s : Text) : Option (Authority × Text) := do
  let (userinfo, place) := splitUser s
  let (name, secret) := splitOff ':' (userinfo.getD [])
  let user := escape userDelimiters name
  let password := escape userDelimiters (secret.getD [])
  let (host, port) := splitPort false place
  if host.isEmpty then
    let isLone := userinfo = some [] && !isEnd
    if port.isEmpty && user.isEmpty && password.isEmpty && !isLone then some ({}, []) else none
  else
    let host ← readHost host
    let (port, rest) ← readPort? port
    some ({ user, password, host, port }, rest)

/-- The text of an authority. -/
def render (authority : Authority) : Text :=
  let password := if authority.password.isEmpty then [] else ':' :: authority.password
  let userinfo := authority.user ++ password
  (if userinfo.isEmpty then [] else userinfo ++ ['@'])
    ++ (authority.host.map Host.render).getD []
    ++ (authority.port.map fun port => ':' :: Nat.toDigits 10 port).getD []

end Authority

end ProxyConfig.Uri

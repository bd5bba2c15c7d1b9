import ProxyConfig.Client.Uri.Authority
import ProxyConfig.Client.Uri.Path

/-! # Document addresses

A client names a document by a URI. Two spellings name the same document if they have the same normal
form: the scheme and the domain are in small letters, host addresses and ports in their shortest form,
dot segments resolved, and characters that may not stand in a URI percent-encoded. Where a scheme is one
of the web or that of files, backslashes count as slashes. A file address names no host if the file is on
the host that reads it.
-/

namespace ProxyConfig

/-- A URI in its normal form. -/
structure Uri where
  scheme : Text
  authority : Option Uri.Authority
  path : Text
  query : Option Text
  fragment : Option Text
deriving DecidableEq

namespace Uri

/-- What the scheme says about the form of a URI. -/
inductive SchemeKind where
  | file
  /-- A scheme of the web, and the port that goes without saying. -/
  | web (port : Nat)
  | other
deriving DecidableEq

/-- The schemes of files and of the web. -/
def schemeKinds : List (String × SchemeKind) :=
  [("file", .file), ("http", .web 80), ("https", .web 443), ("ws", .web 80), ("wss", .web 443),
    ("ftp", .web 21)]

/-- The kind of a scheme in small letters. -/
def schemeKind (scheme : Text) : SchemeKind :=
  (schemeKinds.lookup (String.ofList scheme)).getD .other

/-- Whether a text has the form of a scheme: a letter, then letters, digits and some signs. -/
def isScheme : Text → Bool
  | [] => false
  | c :: rest => c.isAlpha && rest.all fun c => c.isAlphanum || "+-.".toList.contains c

/-- A text with slashes for its backslashes. -/
def slashed (s : Text) : Text := s.map fun c => if c = '\\' then '/' else c

/-- The text up to the first slash, and the text from there. -/
def splitAtSlash (s : Text) : Text × Text := (s.takeWhile (· != '/'), s.dropWhile (· != '/'))

/-- The host of a file address. The one that it is read on is no host. -/
def fileHost? (name : Text) : Option (Option Host) :=
  if name.isEmpty then some none
  else (Host.ofDomain? name).map fun host =>
    if host = .named Host.localName then none else some host

/-- The authority and the path of a file address. A path with a drive is a path on no host. -/
def fileParts? (rest : Text) : Option (Authority × Text) := do
  match slashed rest with
  | '/' :: '/' :: rest =>
    let (name, path) := splitAtSlash rest
    if isDrive name then some ({}, normalFilePath ('/' :: rest))
    else
      let host ← fileHost? name
      let isOnDrive := (Text.pieces '/' path).any isDrive
      some ({ host := if isOnDrive then none else host }, normalFilePath path)
  | rest => some ({}, normalFilePath ('/' :: rest))

/-- The authority and the path of a web address, before which there may be any number of slashes. -/
def webParts? (port : Nat) (rest : Text) : Option (Authority × Text) := do
  let (place, path) := splitAtSlash ((slashed rest).dropWhile (· == '/'))
  let (authority, _) ← Authority.read? Host.ofDomain? false place
  if authority.host.isNone then none
  else
    some ({ authority with port := authority.port.filter (· != port) },
      normalPath (if path.isEmpty then ['/'] else path))

/-- The authority and the path of any other address, which ends the URI if `isEnd` says so. A path
without a slash at the start is taken as it is. -/
def otherParts? (isEnd : Bool) : Text → Option (Option Authority × Text)
  | '/' :: '/' :: rest => do
    let (place, path) := splitAtSlash rest
    let (authority, left) ← Authority.read? Host.ofName? (isEnd && path.isEmpty) place
    let path := if left.isEmpty then path else '/' :: left ++ path
    some (some authority, if path.isEmpty then [] else normalPath path)
  | '/' :: rest => some (none, normalPath ('/' :: rest))
  | rest => some (none, escape "" rest)

/-- The authority and the path of what stands between the scheme and the query. -/
def SchemeKind.parts? (kind : SchemeKind) (isEnd : Bool) (rest : Text) :
    Option (Option Authority × Text) :=
  match kind with
  | file => (fileParts? rest).map fun (authority, path) => (some authority, path)
  | web port => (webParts? port rest).map fun (authority, path) => (some authority, path)
  | other => otherParts? isEnd rest

/-- The text without what clients may leave around and inside of a URI: blanks and controls at the
ends, line ends and tabs anywhere. -/
def strip (s : Text) : Text :=
  let isOuter (c : Char) : Bool := c.toNat ≤ 0x20
  let inner := ((s.dropWhile isOuter).reverse.dropWhile isOuter).reverse
  inner.filter fun c => c != '\t' && c != '\n' && c != '\r'

/-- Reads a URI. It has to have a scheme. -/
def parse? (s : String) : Option Uri := do
  let (scheme, rest) ← (strip s.toList).cut? ':'
  if !isScheme scheme then none
  let scheme := scheme.map Char.toLower
  let kind := schemeKind scheme
  let (rest, fragment) := splitOff '#' rest
  let (rest, query) := splitOff '?' rest
  let (authority, path) ← kind.parts? (query.isNone && fragment.isNone) rest
  let queryDelimiters := if kind = .other then queryDelimiters else queryDelimiters ++ "'"
  some
    { scheme, authority, path
      query := query.map (escape queryDelimiters)
      fragment := fragment.map (escape fragmentDelimiters) }

/-- The text of a URI. A path that looks like an authority gets a dot segment before it. -/
def render (uri : Uri) : String :=
  let part (mark : Char) : Option Text → Text
    | none => []
    | some s => mark :: s
  let place := match uri.authority with
    | some authority => "//".toList ++ authority.render
    | none => if "//".toList.isPrefixOf uri.path then "/.".toList else []
  String.ofList
    (uri.scheme ++ ':' :: place ++ uri.path ++ part '?' uri.query ++ part '#' uri.fragment)

/-- The host of a URI, if it has one. -/
def host? (uri : Uri) : Option Host := do (← uri.authority).host

/-- The path of the file that a URI stands for, if it is on this host. The scheme does not matter. -/
def filePath? (uri : Uri) : Option String :=
  if uri.path.head? = some '/' && uri.host?.all (· = .named Host.localName) then
    String.fromUTF8? ⟨(Text.percentDecode uri.path).toArray⟩
  else none

end Uri

end ProxyConfig

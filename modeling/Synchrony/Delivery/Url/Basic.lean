import Synchrony.Delivery.Url.Address

/-!
# URLs

A URL has a scheme in front of a colon, an authority behind two slashes, a path, a query behind a
question mark and a fragment behind a number sign. All but the path may be missing. Every text can
be split in this way, unless there is something wrong with its authority: brackets that do not
belong together, no address between them, or a character that would count as a separator once it is
written in plain characters.
-/

set_option autoImplicit false

namespace Synchrony

/-- The parts of a URL. -/
structure Url where
  scheme : List Char := []
  authority : List Char := []
  path : List Char := []
  query : List Char := []
  fragment : List Char := []
  deriving DecidableEq, Repr

namespace Url

/-- The characters that no URL starts with. -/
def isLeading (c : Char) : Bool :=
  c.toNat ≤ 32

/-- The characters that no URL has: they are dropped wherever they stand. -/
def isDropped (c : Char) : Bool :=
  c = '\t' || c = '\n' || c = '\r'

/-- The characters of a scheme. -/
def isSchemeChar (c : Char) : Bool :=
  c.isAlphanum || c = '+' || c = '-' || c = '.'

/-- The scheme in lower case, and the rest. -/
def takeScheme (s : List Char) : List Char × List Char :=
  match cut ':' s with
  | (c :: r, some rest) =>
    if c.isAlpha && r.all isSchemeChar then ((c :: r).map Char.toLower, rest) else ([], s)
  | _ => ([], s)

/-- Whether a character ends an authority. -/
def endsAuthority (c : Char) : Bool :=
  c = '/' || c = '?' || c = '#'

/-- The authority, and the rest. -/
def takeAuthority (s : List Char) : List Char × List Char :=
  match s with
  | '/' :: '/' :: r =>
    (r.takeWhile fun c => !endsAuthority c, r.dropWhile fun c => !endsAuthority c)
  | s => ([], s)

/-- Characters that are made up of plain ones, a separator of URLs among them. -/
def disguises : List Nat :=
  [0x2047, 0x2048, 0x2049, 0x2100, 0x2101, 0x2105, 0x2106, 0x2A74, 0xFE13, 0xFE16, 0xFE55, 0xFE56,
    0xFE5F, 0xFE6B, 0xFF03, 0xFF0F, 0xFF1A, 0xFF1F, 0xFF20]

/-- Refuse brackets in an authority that do not stand around an address. -/
def checkBrackets (authority : List Char) : Except Failure Unit :=
  match authority.contains '[', authority.contains ']' with
  | false, false => .ok ()
  | true, true =>
    Address.checkBracketed (((cut '[' authority).2.getD []).takeWhile (· != ']'))
  | _, _ => .error (.fault .value "Invalid IPv6 URL")

/-- Refuse an authority that a separator is disguised in. -/
def checkDisguises (authority : List Char) : Except Failure Unit :=
  if authority.any fun c => disguises.contains c.toNat then
    .error (.fault .value ("netloc '" ++ String.ofList authority ++
      "' contains invalid characters under NFKC normalization"))
  else .ok ()

/-- The parts of a text as a URL. -/
def split (s : List Char) : Except Failure Url := do
  let s := (s.dropWhile isLeading).filter fun c => !isDropped c
  let (scheme, s) := takeScheme s
  let (authority, s) := takeAuthority s
  checkBrackets authority
  let (s, fragment) := cut '#' s
  let (path, query) := cut '?' s
  checkDisguises authority
  pure ⟨scheme, authority, path, query.getD [], fragment.getD []⟩

/-- The schemes that are followed by an authority, be it empty. -/
def locatedSchemes : List String :=
  ["ftp", "http", "gopher", "nntp", "telnet", "imap", "wais", "file", "mms", "https", "shttp",
    "snews", "prospero", "rtsp", "rtsps", "rtspu", "rsync", "svn", "svn+ssh", "sftp", "nfs", "git",
    "git+ssh", "ws", "wss"]

/-- A text behind a separator, unless it is empty. -/
def behind (separator : Char) (s : List Char) : List Char :=
  if s.isEmpty then [] else separator :: s

/-- The authority and the path as they stand in a URL. -/
def location (url : Url) : List Char :=
  if !url.authority.isEmpty || locatedSchemes.contains (String.ofList url.scheme) ||
      ['/', '/'].isPrefixOf url.path then
    '/' :: '/' :: url.authority ++
      (if url.path.isEmpty || url.path.head? = some '/' then url.path else '/' :: url.path)
  else url.path

/-- A URL as a text. -/
def join (url : Url) : List Char :=
  (if url.scheme.isEmpty then [] else url.scheme ++ [':']) ++ url.location ++
    behind '?' url.query ++ behind '#' url.fragment

end Url

end Synchrony

import Synchrony.Delivery.Url.Forms

/-!
# Targets

The target of a request is a URL, of which the scheme and the authority may be missing; the service
then stands in for them. The path of the request is the path of the target with its escapes read.
It always begins with exactly one slash, and escapes that do not amount to UTF-8 read as replacement
characters.

A target is taken apart more than once on its way: what is left of it as path and query is a target
again, and what is then left as path once more. So a path that itself starts like a URL loses what
looks like a scheme or an authority.
-/

set_option autoImplicit false

namespace Synchrony

/-- Where a request goes. -/
structure Target where
  /-- The URL of the service as the client sees it, in ASCII. -/
  base : Url
  /-- The path, with all escapes read. -/
  path : List Char
  deriving Repr

namespace Target

/-- What is left of a URL as a target. -/
def remainder (url : Url) : List Char :=
  url.path ++ Url.behind '?' url.query

/-- The path of a request behind a path in ASCII. -/
def pathOf (s : List Char) : List Char :=
  '/' :: (Encoding.decodeLossy (Url.percentDecode s)).dropWhile (· == '/')

/-- The URL of the service that a target is for. -/
def baseOf (url : Url) : Url where
  scheme := if url.scheme.isEmpty then "http".toList else url.scheme
  authority := if url.authority.isEmpty then "localhost".toList else url.authority
  path := ['/']

/-- The target that a text is. -/
def ofText (text : String) : Except Failure Target := do
  let outer ← Url.split text.toList
  let inner ← Url.split (remainder outer)
  let path ← (← Url.split inner.path).toAscii
  let base ← (← Url.split (baseOf outer).join).toAscii
  pure ⟨← Url.split base.join, pathOf path.join⟩

/-- Whether the service is asked to keep a conversation going. It does not. -/
def isSocket (target : Target) : Bool :=
  target.base.scheme = "ws".toList || target.base.scheme = "wss".toList

/-- Whether the service takes the host of a target for one. The user, if there is one, counts as a
part of it here. -/
def hasHost (target : Target) : Bool :=
  match Url.Domain.toAscii (Url.cut ':' (Text.lower target.base.authority)).1 with
  | .ok _ => true
  | .error _ => false

end Target

end Synchrony

import Synchrony.Delivery.Url.Authority
import Synchrony.Delivery.Url.Domain
import Synchrony.Delivery.Url.Escape

/-!
# Two forms of a URL

Programs send a URL in ASCII: the host in its ASCII form, and all other characters outside ASCII as
percent escapes. People read the host in its own characters, without the port that goes with the
scheme, and whatever need not be escaped as it is. Not every authority has both forms.
-/

set_option autoImplicit false

namespace Synchrony.Url

/-- The URL in ASCII. -/
def toAscii (url : Url) : Except Failure Url := do
  let host ← Domain.toAscii url.host
  let port ← url.port
  let user := percentEncode userChars url.user
  let password := percentEncode userChars url.password
  pure { scheme := url.scheme
         authority := joinAuthority host port user password
         path := percentEncode pathChars url.path
         query := percentEncode queryChars url.query
         fragment := percentEncode ('#' :: queryChars) url.fragment }

/-- Whether a port goes with a scheme. -/
def isUsualPort (scheme : List Char) (port : Nat) : Bool :=
  match String.ofList scheme with
  | "http" => port == 80
  | "ws" => port == 80
  | "https" => port == 443
  | "wss" => port == 443
  | _ => false

/-- The authority as people read it. -/
def readableAuthority (url : Url) : Except Failure (List Char) := do
  let host ← Domain.toUnicode url.host
  let port := (← url.port).filter fun n => !isUsualPort url.scheme n
  pure (joinAuthority host port (readable url.user) (readable url.password))

/-- Refuse an authority that cannot be read by people. -/
def checkReadable (url : Url) : Except Failure Unit := do
  let authority ← url.readableAuthority
  checkBrackets authority
  checkDisguises authority

end Synchrony.Url

import Synchrony.Json.Bytes
import Synchrony.Delivery.Target
import Synchrony.Text.Upper

/-!
# Requests

A request has a method, a target, perhaps the type of its content, and a body. Only some requests
can be sent at all: the target has to be one (`Target.ofText`), the type is one line, and the
authority of the target has a form that people can read.

A body counts as JSON only if its type says so (`isJsonType`). A body that is not JSON, because of
its type or because it cannot be read, is the same as no body at all.
-/

set_option autoImplicit false

namespace Synchrony

/-- What a client asks. -/
structure Request where
  method : String
  target : String
  /-- The type of the content, if one is given. -/
  contentType : Option String := none
  body : String := ""
  deriving Repr, Inhabited

namespace Request

/-- The method in upper case. -/
def verb (request : Request) : String :=
  Text.upper request.method

/-- Refuse a content type of several lines. -/
def checkType (contentType : String) : Except Failure Unit :=
  if contentType.toList.any fun c => c = '\n' || c = '\r' then
    .error (.fault .value "Header values must not contain newline characters.")
  else .ok ()

/-- Where a request goes, if it can be sent. -/
def destination (request : Request) : Except Failure Target := do
  let target ← Target.ofText request.target
  match request.contentType with
  | some contentType => checkType contentType
  | none => pure ()
  target.base.checkReadable
  pure target

/-- The blanks around a content type. -/
def isMargin (c : Char) : Bool :=
  c = ' ' || c = '\t'

/-- A content type without its parameters, in lower case. -/
def essence (contentType : String) : String :=
  let front := (contentType.toList.takeWhile (· != ';')).dropWhile isMargin
  String.ofList ((front.reverse.dropWhile isMargin).reverse.map Char.toLower)

/-- Whether a content type is JSON or a format built on it. -/
def isJsonType (contentType : String) : Bool :=
  let essence := essence contentType
  essence == "application/json" ||
    ("application/".toList.isPrefixOf essence.toList && "+json".toList.isSuffixOf essence.toList)

/-- The body, if it is JSON. -/
def json? (request : Request) : Option Value :=
  if (request.contentType.map isJsonType).getD false then
    Json.ofBytes? (Encoding.encode request.body.toList)
  else none

/-- The request on a line of a console: a method, a target, and the rest of the line as a JSON
body. -/
def ofLine (line : String) : Request :=
  let isWord := fun (c : Char) => !Text.isBlank c
  let s := Text.skipBlanks line.toList
  let rest := Text.skipBlanks (s.dropWhile isWord)
  { method := String.ofList (s.takeWhile isWord)
    target := String.ofList (rest.takeWhile isWord)
    contentType := some "application/json"
    body := String.ofList (Text.trim (rest.dropWhile isWord)) }

end Request

end Synchrony

import Synchrony.Delivery.Request

/-!
# Routes

Three kinds of paths lead somewhere: `/actions/NAME` runs an action, `/syncs` lists the rules, and
`/static/NAME` would be a file, of which there are none. A name has no slash at its beginning and no
line feed behind its first character.

A path that leads nowhere, and would lead somewhere if each row of slashes were a single one, is
sent on to that place.
-/

set_option autoImplicit false

namespace Synchrony

/-- Where a path leads. -/
inductive Route where
  | action (name : String)
  | rules
  | file
  deriving DecidableEq, Repr

namespace Route

/-- The methods that a route takes. -/
def methods : Route → List String
  | .action _ => ["POST", "OPTIONS"]
  | .rules => ["GET", "HEAD", "OPTIONS"]
  | .file => ["GET", "HEAD", "OPTIONS"]

/-- Whether a text can be the name at the end of a path. -/
def isName : List Char → Bool
  | [] => false
  | c :: r => c != '/' && !r.contains '\n'

/-- What is left of a path behind a front, if it has that front. -/
def behind? (front : String) (path : List Char) : Option (List Char) :=
  if front.toList.isPrefixOf path then some (path.drop front.length) else none

/-- The name behind a front, if the path has that front and a name behind it. -/
def nameBehind? (front : String) (path : List Char) : Option String :=
  match behind? front path with
  | some name => if isName name then some (String.ofList name) else none
  | none => none

/-- Where a path leads, if anywhere. -/
def ofPath? (path : List Char) : Option Route :=
  if path = "/syncs".toList then some .rules
  else match nameBehind? "/actions/" path with
    | some name => some (.action name)
    | none => (nameBehind? "/static/" path).map fun _ => .file

/-- A path with every row of slashes made one. -/
def mergeSlashes : List Char → List Char
  | '/' :: '/' :: r => mergeSlashes ('/' :: r)
  | c :: r => c :: mergeSlashes r
  | [] => []

end Route

/-- What becomes of a request. -/
inductive Dispatch where
  | run (action : String)
  | list
  /-- The methods of the place are asked for. -/
  | options
  /-- The path leads somewhere once its slashes are merged. -/
  | moved
  /-- The target is not one for this service. -/
  | refused
  | notFound
  | notAllowed
  deriving DecidableEq, Repr

namespace Dispatch

/-- What becomes of a request that a route takes. -/
def along (verb : String) (route : Route) : Dispatch :=
  if verb = "OPTIONS" then .options
  else match route with
    | .action name => .run name
    | .rules => .list
    | .file => .notFound

/-- What becomes of a request that no path leads anywhere as it stands. -/
def merged (verb : String) (path : List Char) : Dispatch :=
  match Route.ofPath? (Route.mergeSlashes path) with
  | none => .notFound
  | some route => if route.methods.contains verb then .moved else .notAllowed

/-- What becomes of a request with this method and path. -/
def ofPath (verb : String) (path : List Char) : Dispatch :=
  match Route.ofPath? path with
  | some route => if route.methods.contains verb then along verb route else .notAllowed
  | none => merged verb path

/-- What a place that is found becomes where no conversation is kept going. -/
def withoutSocket : Dispatch → Dispatch
  | .notAllowed => .notAllowed
  | _ => .refused

/-- What becomes of a request with this method and target. -/
def of (verb : String) (target : Target) : Dispatch :=
  if !target.hasHost then .refused
  else if target.isSocket && (Route.ofPath? (Route.mergeSlashes target.path)).isSome then
    withoutSocket (ofPath verb target.path)
  else ofPath verb target.path

end Dispatch

end Synchrony

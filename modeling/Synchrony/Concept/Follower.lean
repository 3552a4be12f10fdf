import Synchrony.Concept.Method

/-!
# Followers

Who follows whom: pairs of a user and a target, in the order in which the following began. No pair
occurs twice and nobody follows themselves, where users are compared by the records they name.
-/

set_option autoImplicit false

namespace Synchrony

/-- One user following another. -/
structure Edge where
  user : Ident
  target : Ident
  deriving DecidableEq, Repr, Inhabited

/-- Whether two identifiers name the same record. -/
def Ident.sameRecord (a b : Ident) : Bool :=
  a.hex == b.hex

/-- Whether an edge leads from one user to another. -/
def Edge.joins (user target : Ident) (edge : Edge) : Bool :=
  edge.user.sameRecord user && edge.target.sameRecord target

/-- Whether an edge begins or ends at a user. -/
def Edge.mentions (user : Ident) (edge : Edge) : Bool :=
  edge.user.sameRecord user || edge.target.sameRecord user

/-- The edges in the order in which they came about. -/
abbrev Edges := List Edge

namespace Edges

/-- Whether one user follows another. -/
def joins (edges : Edges) (user target : Ident) : Bool :=
  edges.any (Edge.joins user target)

/-- Begin to follow. The answer says whether this is new. -/
def follow (user target : Value) : Method Edges Bool := do
  let user ← Method.identOf user
  let target ← Method.identOf target
  if user.sameRecord target then
    Method.refuse .notAllowed "Cannot follow yourself!"
  if (← get).joins user target then pure false
  else do
    modify fun edges => edges ++ [⟨user, target⟩]
    pure true

/-- Cease to follow. The answer says whether there was anything to end. -/
def unfollow (user target : Value) : Method Edges Bool := do
  let user ← Method.identOf user
  let target ← Method.identOf target
  let found := (← get).joins user target
  modify fun edges => edges.eraseP (Edge.joins user target)
  pure found

/-- Whether one user follows another. -/
def isFollowing (user target : Value) : Method Edges Bool := do
  let user ← Method.identOf user
  let target ← Method.identOf target
  pure ((← get).joins user target)

/-- The followers of a user, those of longest standing first. -/
def getFollowers (target : Value) : Method Edges (List Ident) := do
  let target ← Method.identOf target
  pure (((← get).filter fun edge => edge.target.sameRecord target).map Edge.user)

/-- Remove every edge that mentions a user. The answer is their number. -/
def removeUser (user : Value) : Method Edges Nat := do
  let user ← Method.identOf user
  let edges ← get
  let kept := edges.filter fun edge => !edge.mentions user
  set kept
  pure (edges.length - kept.length)

/-- What followers offer as actions. -/
def methods : Methods Edges := [
  ("follow", fun
    | [user, target] => return .bool (← follow user target)
    | args => Method.wrongArity "Follower.follow" ["user", "target"] args),
  ("unfollow", fun
    | [user, target] => return .bool (← unfollow user target)
    | args => Method.wrongArity "Follower.unfollow" ["user", "target"] args),
  ("isFollowing", fun
    | [user, target] => return .bool (← isFollowing user target)
    | args => Method.wrongArity "Follower.isFollowing" ["user", "target"] args),
  ("getFollowers", fun
    | [target] => return .list ((← getFollowers target).map Value.ident)
    | args => Method.wrongArity "Follower.getFollowers" ["target"] args),
  ("removeUser", fun
    | [user] => return .int (← removeUser user)
    | args => Method.wrongArity "Follower.removeUser" ["user"] args)]

end Edges

end Synchrony

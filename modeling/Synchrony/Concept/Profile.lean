import Synchrony.Concept.Method
import Synchrony.Value.Equality

/-!
# Profiles

What is public about users. A profile is stored under the hex of the user it belongs to and counts
the user's followers. The count is a number of whatever kind the changes to it made it, and it never
falls below zero.
-/

set_option autoImplicit false

namespace Synchrony

/-- What is public about one user. -/
structure Profile where
  id : Ident
  username : Value
  bio : Value
  image : Value
  followers : Numeric
  deriving Repr

namespace Profile

/-- A profile as a record. -/
def toValue (profile : Profile) : Value :=
  .record [("_id", .ident profile.id), ("username", profile.username), ("bio", profile.bio),
    ("image", profile.image), ("followers", profile.followers.toValue)]

end Profile

/-- The greater of zero and a number. What is not greater than zero gives the integer zero. -/
def Numeric.clamp (n : Numeric) : Numeric :=
  if n.isPositive then n else .int 0

/-- Profiles under the hex of their users. -/
abbrev Profiles := Keyed Profile

namespace Profiles

/-- The hex of a user's profile, and the profile. -/
def byUser (user : Value) : Method Profiles (String × Profile) := do
  let id ← Method.identOf user
  match (← get).get? id.hex with
  | some profile => pure (id.hex, profile)
  | none => Method.refuse .notFound "Profile not found!"

/-- Give a user a profile, in place of the one there may be. -/
def create (user username bio image : Value) : Method Profiles Profile := do
  let id ← Method.identOf user
  let profile : Profile := ⟨id, username, bio, image, .int 0⟩
  modify fun profiles => profiles.put id.hex profile
  pure profile

/-- The profile of a user. -/
def getById (user : Value) : Method Profiles Profile := do
  let (_, profile) ← byUser user
  pure profile

/-- The first profile with a user name. -/
def getByUsername (username : Value) : Method Profiles Profile := do
  let profiles ← get
  match (profiles.map Prod.snd).find? fun profile => profile.username.equal username with
  | some profile => pure profile
  | none => Method.refuse .notFound "Profile not found!"

/-- Write another user name into a profile. -/
def rename (user username : Value) : Method Profiles Profile := do
  let (hex, profile) ← byUser user
  let renamed := { profile with username := username }
  modify fun profiles => profiles.put hex renamed
  pure renamed

/-- A number with something added to it. -/
def increased (n : Numeric) (delta : Value) : Method Profiles Numeric :=
  match delta.numeric? with
  | none =>
    Method.fail (.fault .type ("unsupported operand type(s) for +: " ++
      Text.quoted n.toValue.kindName ++ " and " ++ Text.quoted delta.kindName))
  | some d =>
    match n.add? d with
    | some sum => pure sum
    | none => Method.fail (.fault .overflow "int too large to convert to float")

/-- Change the number of a user's followers by `delta`, down to zero at the lowest. -/
def adjustFollowers (user delta : Value) : Method Profiles Numeric := do
  let (hex, profile) ← byUser user
  let sum ← increased profile.followers delta
  let adjusted := { profile with followers := sum.clamp }
  modify fun profiles => profiles.put hex adjusted
  pure adjusted.followers

/-- Remove the profile of a user. The answer says whether there was one. -/
def delete (user : Value) : Method Profiles Bool := do
  let id ← Method.identOf user
  let found := (← get).has id.hex
  modify fun profiles => profiles.erase id.hex
  pure found

/-- What profiles offer as actions. -/
def methods : Methods Profiles := [
  ("create", fun
    | [user, username, bio, image] => return (← create user username bio image).toValue
    | args => Method.wrongArity "Profile.create" ["user", "username", "bio", "image"] args),
  ("getById", fun
    | [user] => return (← getById user).toValue
    | args => Method.wrongArity "Profile.getById" ["user"] args),
  ("getByUsername", fun
    | [username] => return (← getByUsername username).toValue
    | args => Method.wrongArity "Profile.getByUsername" ["username"] args),
  ("rename", fun
    | [user, username] => return (← rename user username).toValue
    | args => Method.wrongArity "Profile.rename" ["user", "username"] args),
  ("adjustFollowers", fun
    | [user, delta] => return (← adjustFollowers user delta).toValue
    | args => Method.wrongArity "Profile.adjustFollowers" ["user", "delta"] args),
  ("delete", fun
    | [user] => return .bool (← delete user)
    | args => Method.wrongArity "Profile.delete" ["user"] args)]

end Profiles

end Synchrony

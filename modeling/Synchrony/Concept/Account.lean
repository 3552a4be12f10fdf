import Synchrony.Concept.Method
import Synchrony.Value.Equality

/-!
# Accounts

The credentials of users. An account is stored under the hex of its own identifier, has a user name
that no other account has, and its user name, password and email are all present.

An account without its password (`Account.publicView`) is all that reading an account gives away.
-/

set_option autoImplicit false

namespace Synchrony

/-- The credentials of one user. -/
structure Account where
  id : Ident
  username : Value
  password : Value
  email : Value
  createdAt : Binary64
  deriving Repr, Inhabited

namespace Account

/-- An account as a record. -/
def toValue (account : Account) : Value :=
  .record [("_id", .ident account.id), ("username", account.username),
    ("password", account.password), ("email", account.email),
    ("createdAt", .float account.createdAt)]

/-- An account as a record without its password. -/
def publicView (account : Account) : Value :=
  .record [("_id", .ident account.id), ("username", account.username),
    ("email", account.email), ("createdAt", .float account.createdAt)]

end Account

/-- Accounts under the hex of their identifiers. -/
abbrev Accounts := Keyed Account

namespace Accounts

/-- The first account that a test accepts. -/
def find? (accounts : Accounts) (test : Account → Bool) : Option Account :=
  (accounts.map Prod.snd).find? test

/-- The first account with this user name. -/
def withUsername? (accounts : Accounts) (username : Value) : Option Account :=
  accounts.find? fun account => account.username.equal username

/-- Refuse a user name that some account has. -/
def refuseTaken (username : Value) : Method Accounts Unit := do
  if ((← get).withUsername? username).isSome then
    let text ← Method.textOf username
    Method.refuse .notAllowed ("User with username " ++ text ++ " already exists!")

/-- Open an account. -/
def create (username password email : Value) : Method Accounts Ident := do
  if !username.isTruthy || !password.isTruthy || !email.isTruthy then
    Method.refuse .general "Username, password, and email must be non-empty!"
  refuseTaken username
  let id ← Method.take (Supply.ident "")
  let createdAt ← Method.take Supply.now
  modify fun accounts => accounts.put id.hex ⟨id, username, password, email, createdAt⟩
  pure id

/-- The account with these credentials. -/
def authenticate (email password : Value) : Method Accounts Ident := do
  let found := (← get).find? fun account =>
    account.email.equal email && account.password.equal password
  match found with
  | some account => pure account.id
  | none => Method.refuse .notAllowed "Email or password is incorrect."

/-- The account of a user. -/
def byUser (user : Value) : Method Accounts Account := do
  let id ← Method.identOf user
  match (← get).get? id.hex with
  | some account => pure account
  | none => Method.refuse .notFound "User not found!"

/-- The account of a user, without its password. -/
def getById (user : Value) : Method Accounts Value := do
  let account ← byUser user
  pure account.publicView

/-- The account with a user name. -/
def getByUsername (username : Value) : Method Accounts Ident := do
  match (← get).withUsername? username with
  | some account => pure account.id
  | none => Method.refuse .notFound "User not found!"

/-- Give a user another user name. The answer says whether it is another one. -/
def update (user username : Value) : Method Accounts Bool := do
  let id ← Method.identOf user
  match (← get).get? id.hex with
  | none => Method.refuse .notFound "User not found!"
  | some account =>
    if username.equal account.username then pure false
    else do
      refuseTaken username
      modify fun accounts => accounts.put id.hex { account with username := username }
      pure true

/-- Close the account of a user. The answer says whether there was one. -/
def delete (user : Value) : Method Accounts Bool := do
  let id ← Method.identOf user
  let found := (← get).has id.hex
  modify fun accounts => accounts.erase id.hex
  pure found

/-- What accounts offer as actions. -/
def methods : Methods Accounts := [
  ("create", fun
    | [username, password, email] => return .ident (← create username password email)
    | args => Method.wrongArity "Account.create" ["username", "password", "email"] args),
  ("authenticate", fun
    | [email, password] => return .ident (← authenticate email password)
    | args => Method.wrongArity "Account.authenticate" ["email", "password"] args),
  ("getById", fun
    | [user] => getById user
    | args => Method.wrongArity "Account.getById" ["user"] args),
  ("getByUsername", fun
    | [username] => return .ident (← getByUsername username)
    | args => Method.wrongArity "Account.getByUsername" ["username"] args),
  ("update", fun
    | [user, username] => return .bool (← update user username)
    | args => Method.wrongArity "Account.update" ["user", "username"] args),
  ("delete", fun
    | [user] => return .bool (← delete user)
    | args => Method.wrongArity "Account.delete" ["user"] args)]

end Accounts

end Synchrony

import Synchrony.Concept.Society

/-!
# Ensembles

Where a society has one of each concept under its usual name, an ensemble has any number of them
under any names: two sets of accounts side by side, or none at all. Every member of an ensemble has
a store of its own, and all share one supply.
-/

set_option autoImplicit false

namespace Synchrony

/-- The kinds of concepts. -/
inductive Role where
  | account
  | profile
  | follower
  | merge
  | mapper
  deriving DecidableEq, Repr, Inhabited

namespace Role

/-- The usual name of a kind of concept. -/
def name : Role → String
  | .account => "Account"
  | .profile => "Profile"
  | .follower => "Follower"
  | .merge => "Merge"
  | .mapper => "Mapper"

/-- All kinds, in their usual order. -/
def all : List Role := [.account, .profile, .follower, .merge, .mapper]

/-- The kind with a name. -/
def ofName? (name : String) : Option Role :=
  all.find? fun role => role.name == name

end Role

/-- One concept of an ensemble: its kind, and the name its actions are registered under. -/
structure Member where
  role : Role
  name : String
  deriving DecidableEq, Repr, Inhabited

/-- The stores of an ensemble. The stores of each kind are found by the position of their member;
a position without a store has an empty one. -/
structure Ensemble where
  accounts : List (Nat × Accounts) := []
  profiles : List (Nat × Profiles) := []
  edges : List (Nat × Edges) := []
  supply : Supply := {}

/-- The store at a position. -/
def storeAt {S : Type} (empty : S) (stores : List (Nat × S)) (i : Nat) : S :=
  match stores.find? fun entry => entry.1 == i with
  | some entry => entry.2
  | none => empty

/-- Replace the store at a position. -/
def replaceStore {S : Type} (stores : List (Nat × S)) (i : Nat) (store : S) : List (Nat × S) :=
  (i, store) :: stores.filter fun entry => entry.1 != i

namespace Ensemble

/-- The accounts of the member at a position. -/
def accountsPart (i : Nat) : Part Ensemble Accounts where
  get s := storeAt [] s.accounts i
  set store s := { s with accounts := replaceStore s.accounts i store }

/-- The profiles of the member at a position. -/
def profilesPart (i : Nat) : Part Ensemble Profiles where
  get s := storeAt [] s.profiles i
  set store s := { s with profiles := replaceStore s.profiles i store }

/-- The edges of the member at a position. -/
def edgesPart (i : Nat) : Part Ensemble Edges where
  get s := storeAt [] s.edges i
  set store s := { s with edges := replaceStore s.edges i store }

/-- The place of the supply. -/
def supplyPart : Part Ensemble Supply where
  get s := s.supply
  set supply s := { s with supply := supply }

/-- The actions of the member at a position. -/
def actionsAt (i : Nat) (member : Member) : List (String × Action Ensemble) :=
  match member.role with
  | .account => Accounts.methods.actions member.name (accountsPart i) supplyPart
  | .profile => Profiles.methods.actions member.name (profilesPart i) supplyPart
  | .follower => Edges.methods.actions member.name (edgesPart i) supplyPart
  | .merge => Merge.methods.actions member.name .nothing supplyPart
  | .mapper => Mapper.methods.actions member.name .nothing supplyPart

/-- The actions of all members, in order. -/
def actions (members : List Member) : List (String × Action Ensemble) :=
  members.zipIdx.flatMap fun (member, i) => actionsAt i member

end Ensemble

end Synchrony

import Synchrony.Concept.Account
import Synchrony.Concept.Follower
import Synchrony.Concept.Profile
import Synchrony.Concept.View

/-!
# Societies

A society is the state in which the concepts live together: accounts, profiles, who follows whom,
and one supply for all of them. `Society.actions` lists every action that they offer, in the order
of registration.
-/

set_option autoImplicit false

namespace Synchrony

/-- The stores of all concepts. -/
structure Society where
  accounts : Accounts := []
  profiles : Profiles := []
  edges : Edges := []
  supply : Supply := {}

/-- A part that holds nothing, for concepts without a store. -/
def Part.nothing {σ : Type} : Part σ Unit where
  get _ := ()
  set _ s := s

namespace Society

/-- The place of the accounts. -/
def accountsPart : Part Society Accounts where
  get s := s.accounts
  set accounts s := { s with accounts := accounts }

/-- The place of the profiles. -/
def profilesPart : Part Society Profiles where
  get s := s.profiles
  set profiles s := { s with profiles := profiles }

/-- The place of the edges. -/
def edgesPart : Part Society Edges where
  get s := s.edges
  set edges s := { s with edges := edges }

/-- The place of the supply. -/
def supplyPart : Part Society Supply where
  get s := s.supply
  set supply s := { s with supply := supply }

/-- The actions of all concepts. -/
def actions : List (String × Action Society) :=
  Accounts.methods.actions "Account" accountsPart supplyPart ++
    Profiles.methods.actions "Profile" profilesPart supplyPart ++
    Edges.methods.actions "Follower" edgesPart supplyPart ++
    Merge.methods.actions "Merge" .nothing supplyPart ++
    Mapper.methods.actions "Mapper" .nothing supplyPart

end Society

end Synchrony

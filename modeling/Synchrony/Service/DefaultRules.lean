import Synchrony.Rule.Loading

/-!
# The built-in rules

The rules that hold unless others are given. They keep the concepts in step: an account has a
profile under the same name, a following is counted in the profile that is followed, and a closed
account leaves neither a profile nor a following behind.
-/

set_option autoImplicit false

namespace Synchrony

/-- The source of the built-in rules. -/
def defaultRules : String := "
when
  Account.create(username, password, email) -> user
sync
  Profile.create(user, username, \"\", \"\")

when
  Account.update(user, username) -> true
  Profile.getById(user) -> profile
sync
  Profile.rename(user, username)

when
  Follower.follow(user, target) -> true
sync
  Profile.adjustFollowers(target, 1)

when
  Follower.unfollow(user, target) -> true
sync
  Profile.adjustFollowers(target, -1)

when
  Account.delete(user) -> true
sync
  Profile.delete(user)
  Follower.removeUser(user)
"

end Synchrony

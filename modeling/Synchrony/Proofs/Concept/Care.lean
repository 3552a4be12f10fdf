import Synchrony.Proofs.Concept.Rows
import Synchrony.Proofs.Concept.Stores

/-!
# Methods write last

A method may fail because it was called with the wrong number of arguments, because it refuses what
it is asked for, or because it runs into a fault, in arithmetic or on the way from a value to a
text. What it had written by then would stay written. No method of a concept has written anything
when it fails: all of them first look at what they were given and at what is stored, and write last
(`Accounts.methods_careful` and so on). So a call that fails leaves its store as it was, entry by
entry and in the same order.
-/

set_option autoImplicit false

namespace Synchrony

open Method

/-! ## The methods of each concept -/

namespace Accounts

theorem refuseTaken_keeps (username : Value) : (refuseTaken username).Keeps :=
  .bind .get fun _ => .ite _ (.bind (.textOf _) fun _ => .fail _) (.pure _)

theorem create_careful (username password email : Value) :
    (create username password email).Careful := by
  have hopen : (do
      refuseTaken username
      let id ← Method.take (Supply.ident "")
      let createdAt ← Method.take Supply.now
      modify fun accounts => accounts.put id.hex ⟨id, username, password, email, createdAt⟩
      pure id : Method Accounts Ident).Careful := by
    refine .bind_of_keeps (refuseTaken_keeps username) fun _ => ?_
    refine .bind_of_keeps (.take _) fun id => .bind_of_keeps (.take _) fun createdAt => ?_
    exact (Answers.bind (.modify _) fun _ => .pure _).careful
  exact .ite _ (.bind_of_keeps (.fail _) fun _ => hopen) hopen

theorem update_careful (user username : Value) : (update user username).Careful := by
  refine .bind_of_keeps (.identOf user) fun id => .bind_of_keeps .get fun accounts => ?_
  split
  · exact .fail _
  · refine .ite _ (Keeps.pure _).careful ?_
    refine .bind_of_keeps (refuseTaken_keeps username) fun _ => ?_
    exact (Answers.bind (.modify _) fun _ => .pure _).careful

theorem delete_careful (user : Value) : (delete user).Careful := by
  refine .bind_of_keeps (.identOf user) fun id => .bind_of_keeps .get fun accounts => ?_
  exact (Answers.bind (.modify _) fun _ => .pure _).careful

theorem methods_careful : ∀ method ∈ methods, ∀ args, (method.2 args).Careful := by
  intro method hmem args
  by_cases hreads : method.1 ∉ ["create", "update", "delete"]
  · exact (methods_read method hmem hreads args).keeps.careful
  · simp only [methods, List.mem_cons, List.not_mem_nil, or_false] at hmem
    rcases hmem with rfl | rfl | rfl | rfl | rfl | rfl
    case inr.inl | inr.inr.inl | inr.inr.inr.inl => exact absurd (by decide) hreads
    case inl =>
      dsimp only
      split
      · exact (create_careful _ _ _).map _
      · exact .fail _
    case inr.inr.inr.inr.inl =>
      dsimp only
      split
      · exact (update_careful _ _).map _
      · exact .fail _
    case inr.inr.inr.inr.inr =>
      dsimp only
      split
      · exact (delete_careful _).map _
      · exact .fail _

end Accounts

namespace Profiles

theorem create_careful (user username bio image : Value) :
    (create user username bio image).Careful := by
  refine .bind_of_keeps (.identOf user) fun id => ?_
  exact (Answers.bind (.modify _) fun _ => .pure _).careful

theorem rename_careful (user username : Value) : (rename user username).Careful := by
  refine .bind_of_keeps (byUser_reads user).keeps fun found => ?_
  exact (Answers.bind (.modify _) fun _ => .pure _).careful

theorem increased_keeps (n : Numeric) (delta : Value) : (increased n delta).Keeps := by
  rw [increased]
  split
  · exact .fail _
  · split
    · exact .pure _
    · exact .fail _

theorem adjustFollowers_careful (user delta : Value) : (adjustFollowers user delta).Careful := by
  refine .bind_of_keeps (byUser_reads user).keeps fun found => ?_
  refine .bind_of_keeps (increased_keeps _ _) fun sum => ?_
  exact (Answers.bind (.modify _) fun _ => .pure _).careful

theorem delete_careful (user : Value) : (delete user).Careful := by
  refine .bind_of_keeps (.identOf user) fun id => .bind_of_keeps .get fun profiles => ?_
  exact (Answers.bind (.modify _) fun _ => .pure _).careful

theorem methods_careful : ∀ method ∈ methods, ∀ args, (method.2 args).Careful := by
  intro method hmem args
  by_cases hreads : method.1 ∉ ["create", "rename", "adjustFollowers", "delete"]
  · exact (methods_read method hmem hreads args).keeps.careful
  · simp only [methods, List.mem_cons, List.not_mem_nil, or_false] at hmem
    rcases hmem with rfl | rfl | rfl | rfl | rfl | rfl
    case inr.inl | inr.inr.inl => exact absurd (by decide) hreads
    case inl =>
      dsimp only
      split
      · exact (create_careful _ _ _ _).map _
      · exact .fail _
    case inr.inr.inr.inl =>
      dsimp only
      split
      · exact (rename_careful _ _).map _
      · exact .fail _
    case inr.inr.inr.inr.inl =>
      dsimp only
      split
      · exact (adjustFollowers_careful _ _).map _
      · exact .fail _
    case inr.inr.inr.inr.inr =>
      dsimp only
      split
      · exact (delete_careful _).map _
      · exact .fail _

end Profiles

namespace Edges

theorem follow_careful (user target : Value) : (follow user target).Careful := by
  refine .bind_of_keeps (.identOf user) fun a => .bind_of_keeps (.identOf target) fun b => ?_
  have hjoin : (do
      if (← get).joins a b then pure false
      else do
        modify fun edges => edges ++ [⟨a, b⟩]
        pure true : Method Edges Bool).Careful := by
    refine .bind_of_keeps .get fun edges => .ite _ (Keeps.pure _).careful ?_
    exact (Answers.bind (.modify _) fun _ => .pure _).careful
  exact .ite _ (.bind_of_keeps (.fail _) fun _ => hjoin) hjoin

theorem unfollow_careful (user target : Value) : (unfollow user target).Careful := by
  refine .bind_of_keeps (.identOf user) fun a => .bind_of_keeps (.identOf target) fun b => ?_
  refine .bind_of_keeps .get fun edges => ?_
  exact (Answers.bind (.modify _) fun _ => .pure _).careful

theorem removeUser_careful (user : Value) : (removeUser user).Careful := by
  refine .bind_of_keeps (.identOf user) fun id => .bind_of_keeps .get fun edges => ?_
  exact (Answers.bind (.set _) fun _ => .pure _).careful

theorem methods_careful : ∀ method ∈ methods, ∀ args, (method.2 args).Careful := by
  intro method hmem args
  by_cases hreads : method.1 ∉ ["follow", "unfollow", "removeUser"]
  · exact (methods_read method hmem hreads args).keeps.careful
  · simp only [methods, List.mem_cons, List.not_mem_nil, or_false] at hmem
    rcases hmem with rfl | rfl | rfl | rfl | rfl
    case inr.inr.inl | inr.inr.inr.inl => exact absurd (by decide) hreads
    case inl =>
      dsimp only
      split
      · exact (follow_careful _ _).map _
      · exact .fail _
    case inr.inl =>
      dsimp only
      split
      · exact (unfollow_careful _ _).map _
      · exact .fail _
    case inr.inr.inr.inr =>
      dsimp only
      split
      · exact (removeUser_careful _).map _
      · exact .fail _

end Edges

end Synchrony

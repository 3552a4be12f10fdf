import Synchrony.Proofs.Engine.Sessions
import Synchrony.Proofs.Rule.Layout
import Synchrony.Service.Startup

/-!
# The built-in rules as they are read

`defaultRules` is a text. This module says which rules it stands for (`loadRules_defaultRules`) and
what an engine is that runs on them and on the actions of a society (`Engine.IsBuiltIn`).

The text is laid out line by line, so its rules need no reading: they are the rules of the drafts
that it is the layout of. Whoever changes the built-in rules changes their drafts here along with
them, and the theorems about runs speak of `builtInRules` only.
-/

set_option autoImplicit false

namespace Synchrony

/-! ## The drafts -/

namespace Source

namespace BuiltIn

/-- A word at a position. -/
def word (head : Char) (tail : String) (letter : isLetter head = true)
    (names : tail.toList.all isNameChar = true) : Word :=
  ⟨head, tail.toList, letter, List.all_eq_true.mp names⟩

def emptyText : Literal where
  head := '"'
  tail := ['"']
  value := .text ""
  not_letter := rfl
  not_blank := rfl
  inside := by simp [endsLiteral]
  reads := rfl
  scalar := rfl

def minusOne : Literal where
  head := '-'
  tail := ['1']
  value := .int (-1)
  not_letter := rfl
  not_blank := rfl
  inside := by simp [endsLiteral]
  reads := rfl
  scalar := rfl

def user : Atom := .word (word 'u' "ser" rfl rfl)

def username : Atom := .word (word 'u' "sername" rfl rfl)

def target : Atom := .word (word 't' "arget" rfl rfl)

def isTrue : Atom := .word (word 't' "rue" rfl rfl)

def drafts : List RuleDraft := [
  { trigger := {
      name := word 'A' "ccount.create" rfl rfl
      args := [username, .word (word 'p' "assword" rfl rfl), .word (word 'e' "mail" rfl rfl)]
      returns := [user] }
    guards := []
    first := {
      name := word 'P' "rofile.create" rfl rfl
      args := [user, username, .literal emptyText, .literal emptyText]
      returns := [] }
    more := [] },
  { trigger := {
      name := word 'A' "ccount.update" rfl rfl
      args := [user, username]
      returns := [isTrue] }
    guards := [{
      name := word 'P' "rofile.getById" rfl rfl
      args := [user]
      returns := [.word (word 'p' "rofile" rfl rfl)] }]
    first := {
      name := word 'P' "rofile.rename" rfl rfl
      args := [user, username]
      returns := [] }
    more := [] },
  { trigger := {
      name := word 'F' "ollower.follow" rfl rfl
      args := [user, target]
      returns := [isTrue] }
    guards := []
    first := {
      name := word 'P' "rofile.adjustFollowers" rfl rfl
      args := [target, .literal .one]
      returns := [] }
    more := [] },
  { trigger := {
      name := word 'F' "ollower.unfollow" rfl rfl
      args := [user, target]
      returns := [isTrue] }
    guards := []
    first := {
      name := word 'P' "rofile.adjustFollowers" rfl rfl
      args := [target, .literal minusOne]
      returns := [] }
    more := [] },
  { trigger := {
      name := word 'A' "ccount.delete" rfl rfl
      args := [user]
      returns := [isTrue] }
    guards := []
    first := {
      name := word 'P' "rofile.delete" rfl rfl
      args := [user]
      returns := [] }
    more := [{
      name := word 'F' "ollower.removeUser" rfl rfl
      args := [user]
      returns := [] }] }]

end BuiltIn

end Source

/-! ## The rules -/

namespace BuiltIn

def createRule : Rule where
  trigger := ⟨"Account.create",
    [.var ⟨"username", 0⟩, .var ⟨"password", 0⟩, .var ⟨"email", 0⟩], some [.var ⟨"user", 0⟩]⟩
  guards := []
  consequences := [⟨"Profile.create",
    [.var ⟨"user", 0⟩, .var ⟨"username", 0⟩, .lit (.text ""), .lit (.text "")], none⟩]
  line := 2

def updateRule : Rule where
  trigger := ⟨"Account.update", [.var ⟨"user", 1⟩, .var ⟨"username", 1⟩],
    some [.lit (.bool true)]⟩
  guards := [⟨"Profile.getById", [.var ⟨"user", 1⟩], some [.var ⟨"profile", 1⟩]⟩]
  consequences := [⟨"Profile.rename", [.var ⟨"user", 1⟩, .var ⟨"username", 1⟩], none⟩]
  line := 7

/-- The rules about following and ceasing to follow differ in their trigger and in what they add to
the number of followers. -/
def followRule (action : String) (scope : Nat) (delta : Int) (line : Nat) : Rule where
  trigger := ⟨action, [.var ⟨"user", scope⟩, .var ⟨"target", scope⟩], some [.lit (.bool true)]⟩
  guards := []
  consequences := [⟨"Profile.adjustFollowers", [.var ⟨"target", scope⟩, .lit (.int delta)], none⟩]
  line := line

def deleteRule : Rule where
  trigger := ⟨"Account.delete", [.var ⟨"user", 4⟩], some [.lit (.bool true)]⟩
  guards := []
  consequences := [⟨"Profile.delete", [.var ⟨"user", 4⟩], none⟩,
    ⟨"Follower.removeUser", [.var ⟨"user", 4⟩], none⟩]
  line := 23

end BuiltIn

/-- The rules that `defaultRules` stands for. -/
def builtInRules : List Rule :=
  [BuiltIn.createRule, BuiltIn.updateRule, BuiltIn.followRule "Follower.follow" 2 1 13,
    BuiltIn.followRule "Follower.unfollow" 3 (-1) 18, BuiltIn.deleteRule]

-- The layout has some five hundred characters, and comparing texts recurses on them.
set_option maxRecDepth 20000 in
theorem defaultRules_eq_layout :
    defaultRules = String.ofList (Source.SourceForm.laidOut Source.BuiltIn.drafts).text := by
  rfl

theorem readRules_defaultRules : readRules defaultRules = .ok builtInRules := by
  rw [readRules_iff]
  have hrules : Source.RuleForm.rules 0 2 (Source.RuleForm.allLaidOut Source.BuiltIn.drafts) =
      builtInRules := by rfl
  refine ⟨_, hrules ▸ Source.SourceForm.derives_laidOut ?_⟩
  rw [defaultRules_eq_layout, String.toList_ofList]

/-- **The built-in rules are the five rules above.** -/
theorem loadRules_defaultRules : loadRules defaultRules = .ok (.ofRules builtInRules) := by
  rw [loadRules, readRules_defaultRules]

/-! ## The actions -/

/-- Names that differ are registered without fail. -/
theorem Registry.registerAll_of_nodup {α : Type} (registry : Registry α)
    (pairs : List (String × α)) (h : (registry.entries ++ pairs).keys.Nodup) :
    registry.registerAll pairs = .ok ⟨registry.entries ++ pairs, h⟩ := by
  induction pairs generalizing registry with
  | nil => simp [registerAll]
  | cons pair pairs ih =>
    obtain ⟨name, a⟩ := pair
    have hname : name ∉ registry.entries.keys := by
      intro hmem
      rw [Keyed.keys, List.map_append, List.nodup_append] at h
      exact h.2.2 name hmem name (by simp) rfl
    rw [registerAll, register, dif_neg hname]
    dsimp only
    rw [ih _ (by simpa using h)]
    simp

namespace Society

theorem actions_nodup : (Keyed.keys Society.actions).Nodup := by
  decide

/-- The actions of a society as they are registered. -/
def registry : Registry (Action Society) :=
  ⟨Society.actions, actions_nodup⟩

theorem ofPairs_actions : Registry.ofPairs Society.actions = .ok Society.registry :=
  Registry.registerAll_of_nodup .empty _ actions_nodup

end Society

/-! ## Engines that run on both -/

namespace Engine

/-- The engine on the built-in rules and the actions of a society. -/
def builtIn (cap : Option Int) : Engine Society :=
  ⟨.ofRules builtInRules, Society.registry, cap⟩

/-- An engine is on the built-in rules and the actions of a society, with any cap. -/
structure IsBuiltIn (engine : Engine Society) : Prop where
  rules : loadRules defaultRules = .ok engine.rulebook
  actions : Registry.ofPairs Society.actions = .ok engine.actions

theorem IsBuiltIn.eq {engine : Engine Society} (h : engine.IsBuiltIn) :
    engine = .builtIn engine.cap := by
  obtain ⟨hrules, hactions⟩ := h
  rw [loadRules_defaultRules] at hrules
  rw [Society.ofPairs_actions] at hactions
  obtain ⟨rulebook, actions, cap⟩ := engine
  cases hrules
  cases hactions
  rfl

theorem builtIn_isBuiltIn (cap : Option Int) : (builtIn cap).IsBuiltIn :=
  ⟨loadRules_defaultRules, Society.ofPairs_actions⟩

/-- Settings without a rule file ask for such an engine. -/
theorem isBuiltIn_of_start {settings : Settings} {find : String → Found} {startup : Startup}
    (hpath : settings.rulePath? = none) (h : settings.start find = .ok startup) :
    startup.engine.IsBuiltIn := by
  rw [Settings.start, Settings.rules, hpath, loadRules_defaultRules, Society.ofPairs_actions] at h
  cases h
  exact builtIn_isBuiltIn _

theorem under_builtIn (cap : Option Int) (action : String) :
    (builtIn cap).rulebook.under action =
      builtInRules.filter fun rule => rule.anchor = action :=
  Rulebook.under_eq_filter _ action

/-- What the built-in rules call sets off no rules. -/
theorem builtIn_flat (cap : Option Int) : (builtIn cap).rulebook.Flat := by
  intro rule hrule line hline
  rw [under_builtIn]
  have hall : ∀ rule ∈ builtInRules, ∀ line ∈ rule.ownLines,
      ∀ other ∈ builtInRules, other.anchor ≠ line.action := by
    simp [builtInRules, BuiltIn.createRule, BuiltIn.updateRule, BuiltIn.followRule,
      BuiltIn.deleteRule, Rule.ownLines, Rule.anchor]
  rw [List.filter_eq_nil_iff]
  intro other hother hanchor
  exact hall rule hrule line hline other hother (of_decide_eq_true hanchor)

end Engine

end Synchrony

import Synchrony.Delivery.Exchange
import Synchrony.Log.Console
import Synchrony.Service.DefaultRules
import Synchrony.Service.Sources

/-!
# Starting the service

From settings to an engine: the rules come from the rule file, or are the built-in ones if no file
is set, and the actions are those of a society. An action that rules name and nothing is registered
for is logged, one record for each, in order; the service starts all the same.
-/

set_option autoImplicit false

namespace Synchrony

/-- The rulebook of what a path leads to. -/
def Found.rules (path : String) (found : Found) : Except Failure Rulebook := do
  loadRuleFile (← found.bytes path)

/-- The path of the rule file, if one is set. An empty path is none. -/
def Settings.rulePath? (settings : Settings) : Option String :=
  match settings.syncFile with
  | some path => if path.isEmpty then none else some path
  | none => none

/-- The rules that the settings ask for. -/
def Settings.rules (settings : Settings) (find : String → Found) : Except Failure Rulebook :=
  match settings.rulePath? with
  | some path => (find path).rules path
  | none => loadRules defaultRules

/-- The log record for an action that rules name and nothing is registered for. -/
def unregistered (action : String) : Log.Record where
  severity := .warning
  logger := "app"
  message := "Sync references unregistered action " ++ action
  extras := { action := some (.text action) }

/-- An engine that was built, and what was logged on the way. -/
structure Startup where
  engine : Engine Society
  records : List Log.Record

/-- Build the engine that the settings ask for. -/
def Settings.start (settings : Settings) (find : String → Found) : Except Failure Startup := do
  let rulebook ← settings.rules find
  let actions ← Registry.ofPairs Society.actions
  let engine : Engine Society := ⟨rulebook, actions, settings.maxCascadeTraces⟩
  pure ⟨engine, rulebook.loaded :: engine.missingActions.map unregistered⟩

/-- The console that the settings ask for. -/
def Settings.console (settings : Settings) (console : Log.Console) : Except Failure Log.Console :=
  console.setUp settings.logLevel settings.logFormat

end Synchrony

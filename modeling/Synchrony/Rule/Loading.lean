import Synchrony.Failure
import Synchrony.Log.Record
import Synchrony.Rule.Source
import Synchrony.Rule.Rulebook
import Synchrony.Text.Encoding

/-!
# Loading rules

Rules come from a text or from the bytes of a file, and end up in a rulebook. A rulebook that was
loaded is logged with the number of its rules and of its anchors; a source that cannot be read is a
failure, and nothing is logged then.
-/

set_option autoImplicit false

namespace Synchrony

/-- An error in a source as a failure. -/
def SourceError.toFailure (e : SourceError) : Failure :=
  .source e.reason.text e.line e.column e.text

/-- The rulebook of a source text. -/
def loadRules (source : String) : Except Failure Rulebook :=
  match readRules source with
  | .ok rules => .ok (.ofRules rules)
  | .error e => .error e.toFailure

/-- The rulebook of a rule file. -/
def loadRuleFile (bytes : List Nat) : Except Failure Rulebook :=
  match Encoding.decodeFile bytes with
  | .ok source => loadRules (String.ofList source)
  | .error refusal => .error (.fault .decoding refusal)

/-- The log record for a rulebook that was loaded. -/
def Rulebook.loaded (rulebook : Rulebook) : Log.Record where
  severity := .debug
  logger := "sync"
  message := "Parsed " ++ Decimal.natText rulebook.rules.length ++ " syncs over " ++
    Decimal.natText rulebook.size ++ " anchors"

end Synchrony

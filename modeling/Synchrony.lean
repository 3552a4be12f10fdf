import Synchrony.Concept.Ensemble
import Synchrony.Main
import Synchrony.Failure.Named
import Synchrony.Proofs.Engine.Cost
import Synchrony.Proofs.Engine.History
import Synchrony.Proofs.Rule.Grammar
import Synchrony.Proofs.Engine.Order
import Synchrony.Proofs.Engine.Escapes
import Synchrony.Proofs.Society.Followings
import Synchrony.Proofs.Society.Unclamped
import Synchrony.Proofs.Engine.Scoping
import Synchrony.Proofs.Rule.Printed
import Synchrony.Proofs.Rule.Errors
import Synchrony.Proofs.Engine.Reach
import Synchrony.Proofs.Engine.Bounded
import Synchrony.Proofs.Engine.Alike
import Synchrony.Proofs.Engine.Splitting
import Synchrony.Proofs.Engine.Supplies
import Synchrony.Proofs.Engine.OwnArguments
import Synchrony.Proofs.Engine.Literals
import Synchrony.Proofs.Engine.Inert
import Synchrony.Proofs.Engine.Renaming
import Synchrony.Proofs.Society.Passwords
import Synchrony.Proofs.Society.Identifiers
import Synchrony.Proofs.Engine.Occurrences
import Synchrony.Proofs.Concept.Credentials
import Synchrony.Proofs.Concept.Pairs
import Synchrony.Proofs.Rule.Composing
import Synchrony.Proofs.Rule.LineBreaks
import Synchrony.Proofs.Concept.FoundAgain
import Synchrony.Proofs.Engine.Rearranging
import Synchrony.Proofs.Engine.Logs
import Synchrony.Proofs.Json.NormalForm
import Synchrony.Proofs.Rule.Progress
import Synchrony.Proofs.Log.Lines
import Synchrony.Proofs.Service.Replies
import Synchrony.Proofs.Society.WellFormed

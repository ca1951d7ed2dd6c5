import Vigil.Inspection
import Vigil.Main
import Vigil.Ternary.Kleene
import Vigil.Proofs.Attention.Capacity
import Vigil.Proofs.Attention.Selection
import Vigil.Proofs.Choice.Course
import Vigil.Proofs.Network.Escalation
import Vigil.Proofs.Engine.Record
import Vigil.Proofs.Engine.Verdicts
import Vigil.Proofs.Engine.Escalated
import Vigil.Proofs.Choice.Series
import Vigil.Proofs.Network.Exclusive
import Vigil.Proofs.Monitor.Accounts
import Vigil.Proofs.Network.Reception
import Vigil.Proofs.Choice.Bystanders
import Vigil.Proofs.Config.Faults
import Vigil.Proofs.Config.Text
import Vigil.Proofs.Network.Registration
import Vigil.Proofs.Ternary.Reading
import Vigil.Proofs.Choice.Monotone
import Vigil.Proofs.Choice.Aggregates
import Vigil.Proofs.Choice.Trend
import Vigil.Proofs.Choice.Weights
import Vigil.Proofs.Choice.Evenness
import Vigil.Proofs.Choice.Bins
import Vigil.Proofs.Choice.Streak
import Vigil.Proofs.Ternary.Folds
import Vigil.Proofs.Choice.Tally
import Vigil.Proofs.Command.Evaluate

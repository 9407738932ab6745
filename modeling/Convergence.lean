import Convergence.Main
import Convergence.Reconcile.Script
import Convergence.Proofs.Record.History
import Convergence.Proofs.Store.Calls
import Convergence.Proofs.Worker.Report
import Convergence.Proofs.Worker.Commands
import Convergence.Proofs.Worker.Runs
import Convergence.Proofs.Worker.Timers
import Convergence.Proofs.Registry
import Convergence.Proofs.Worker.Expected
import Convergence.Proofs.Markers
import Convergence.Proofs.Worker.WakeUps
import Convergence.Proofs.Worker.Solo
import Convergence.Proofs.Activation.Readiness
import Convergence.Proofs.Json.Tokens
import Convergence.Proofs.Json.RoundTrip
import Convergence.Proofs.Record.Codec
import Convergence.Proofs.Project
import Convergence.Proofs.Worker.Clients
import Convergence.Proofs.Activation.Plan
import Convergence.Proofs.Activation.Runs
import Convergence.Proofs.Activation.Described
import Convergence.Proofs.Activation.SetUpOnce
import Convergence.Proofs.Activation.Drafts
import Convergence.Proofs.Activation.Webhooks
import Convergence.Proofs.Activation.Conflicts
import Convergence.Proofs.Activation.Neighbours
import Convergence.Proofs.Deactivation
import Convergence.Proofs.Worker.Marked
import Convergence.Proofs.Worker.Called
import Convergence.Proofs.Lifecycle
import Convergence.Proofs.Worker.Backoff
import Convergence.Proofs.Store.Delivery
import Convergence.Proofs.Worker.Hearing
import Convergence.Proofs.Worker.Independence
import Convergence.Proofs.Worker.Uncalled
import Convergence.Proofs.Documents
import Convergence.Proofs.Config.Effective
import Convergence.Proofs.Record.Updates
import Convergence.Proofs.Record.Versions
import Convergence.Proofs.Worker.Failures
import Convergence.Proofs.Activation.Progress
import Convergence.Proofs.Store.Gaps
import Convergence.Proofs.Delay
import Convergence.Proofs.Config.Accepted
import Convergence.Proofs.Config.Overrides
import Convergence.Proofs.Registration
import Convergence.Proofs.Slug
import Convergence.Proofs.Backend.Histories
import Convergence.Proofs.Activation.Properties
import Convergence.Proofs.Seeding
import Convergence.Proofs.Members

import VideoPoster.Executor.Spending
import VideoPoster.Executor.Freeze
import VideoPoster.Executor.Collision
import VideoPoster.Executor.Projection
import VideoPoster.Authorization.Admitted
import VideoPoster.Authorization.Chain
import VideoPoster.Production.Adapter
import VideoPoster.State.Recovery
import VideoPoster.Worker.Turns
import VideoPoster.Worker.Status
import VideoPoster.Delivery.Order
import VideoPoster.Publishing.Binding
import VideoPoster.Throughput.Resume
import VideoPoster.Approval.Gate
import VideoPoster.Autonomous.Remediation
import VideoPoster.Autonomous.Arrival
import VideoPoster.Live.Recovery
import VideoPoster.Harness.Forward
import VideoPoster.State.Drawing
import VideoPoster.Revision.Rejection
import VideoPoster.Pods.Once
import VideoPoster.Flights.Single
import VideoPoster.Hero.Paid
import VideoPoster.Fal.Readback
import VideoPoster.RevisionLive.Budget
import VideoPoster.Autonomous.Rebuilt
import VideoPoster.Cas.Faithful
import VideoPoster.RevisionLive.ReviewOnce
import VideoPoster.Outbox.Drained
import VideoPoster.Preproduction.Imported
import VideoPoster.Preproduction.Compilable
import VideoPoster.Render.Crossfade
import VideoPoster.Budget.Restart
import VideoPoster.StandingBudget.Exact
import VideoPoster.Production.Heroes
import VideoPoster.Revoice.Allocate
import VideoPoster.Cas.Store
import VideoPoster.Autonomous.Topological
import VideoPoster.Captions.Wrap
import VideoPoster.Planning.Duration
import VideoPoster.Captions.Cues

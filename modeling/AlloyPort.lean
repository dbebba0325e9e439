import AlloyPort.Artifacts.Quota
import AlloyPort.Artifacts.Replay
import AlloyPort.Artifacts.Staging
import AlloyPort.Artifacts.Sweep
import AlloyPort.Attempts.PairSettling
import AlloyPort.Candidate.ContextText
import AlloyPort.Candidate.Diagnostics
import AlloyPort.Candidate.Encoding
import AlloyPort.Candidate.Lineage
import AlloyPort.Candidate.Reach
import AlloyPort.Candidate.RecordFaithful
import AlloyPort.Context.Codec
import AlloyPort.Context.Dispatch
import AlloyPort.Control.Cancellation
import AlloyPort.ControlStream.Deadlock
import AlloyPort.Enrollment.Lifetime
import AlloyPort.Episode.Ambiguity
import AlloyPort.Episode.Cancellation
import AlloyPort.Episode.Failure
import AlloyPort.Episode.Once
import AlloyPort.Episode.Operations
import AlloyPort.Episode.Semantic
import AlloyPort.Episode.Success
import AlloyPort.Knowledge.Admission
import AlloyPort.Migration.Recovery
import AlloyPort.Migration.Watching
import AlloyPort.Oracle.Spread
import AlloyPort.Projection.Startup
import AlloyPort.Runtime.Device
import AlloyPort.Runtime.Output
import AlloyPort.Runtime.Selection
import AlloyPort.Runtime.Terminal
import AlloyPort.Service.Reporting
import AlloyPort.Transport.Diagnostic
import AlloyPort.Worker.Acceptance
import AlloyPort.Worker.SandboxRecovery

import Provisioning.Config.MachineJson
import Provisioning.Event.Listener
import Provisioning.Main
import Provisioning.Proofs.Cache.Search
import Provisioning.Proofs.Config.Expansion
import Provisioning.Proofs.Package.Shape
import Provisioning.Proofs.Run.Consistency
import Provisioning.Proofs.Run.Idempotence
import Provisioning.Proofs.Run.Soundness
import Provisioning.Proofs.Run.Resume
import Provisioning.Proofs.Run.Forecast
import Provisioning.Proofs.Run.Events
import Provisioning.Proofs.Run.Observation
import Provisioning.Proofs.Template.Inline
import Provisioning.Proofs.Template.Splice
import Provisioning.Proofs.Field.Validation
import Provisioning.Proofs.Config.Binding
import Provisioning.Proofs.Config.Independence
import Provisioning.Proofs.Run.Fleet
import Provisioning.Proofs.Run.Streaming
import Provisioning.Proofs.Event.Traffic
import Provisioning.Proofs.Event.Journal
import Provisioning.Proofs.Event.Places
import Provisioning.Proofs.Shell.Layers
import Provisioning.Proofs.Config.Parameters
import Provisioning.Proofs.Config.Instances
import Provisioning.Proofs.Run.Reordering
import Provisioning.Proofs.Config.Ordering
import Provisioning.Proofs.Digest.Chain
import Provisioning.Proofs.Cache.Decision
import Provisioning.Proofs.Field.Acceptance
import Provisioning.Proofs.Template.Depth
import Provisioning.Proofs.Template.Escape
import Provisioning.Proofs.Template.Spans
import Provisioning.Proofs.Config.Passing
import Provisioning.Proofs.Cache.Grammar
import Provisioning.Proofs.Run.Lines
import Provisioning.Proofs.Command.Inputs
import Provisioning.Proofs.Command.Files

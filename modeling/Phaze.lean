import Phaze.Execution.Attempts
import Phaze.Collision.Agreement
import Phaze.Dispatch.Conservation
import Phaze.Recovery.Partition
import Phaze.Dedup.Survivors
import Phaze.Staging.Breaking
import Phaze.Staging.Transfer
import Phaze.Cloud.Tripping
import Phaze.Cloud.Attempts
import Phaze.Cloud.Chains
import Phaze.Staging.Redrive
import Phaze.Push.Budget
import Phaze.Drain.Isolation
import Phaze.Drain.Progress
import Phaze.Drain.Caps
import Phaze.Submit.Ownership
import Phaze.Submit.TelemetrySlots
import Phaze.Attempt.Ownership
import Phaze.Tagging.Chain
import Phaze.Tagging.Texts
import Phaze.Tagging.RoundTrip
import Phaze.Quarantine.Approval
import Phaze.Quarantine.Decisions
import Phaze.Provider.Availability
import Phaze.Provider.Rejections
import Phaze.Lookup.Leases
import Phaze.Analysis.Completion
import Phaze.Companion.Coalescing
import Phaze.Pause.Bodies
import Phaze.Transport.Politeness
import Phaze.Outbound.Urls
import Phaze.Analysis.Limiter
import Phaze.Mpeg.Windows
import Phaze.Tracklist.Segments
import Phaze.Kube.Quantity
import Phaze.Cue.Retarget
import Phaze.Cue.RoundTrip
import Phaze.Tracklist.Visible
import Phaze.Projection.Flicker
import Phaze.Projection.Nested
import Phaze.Media.Resolve
import Phaze.Media.Mojibake
import Phaze.Registry.Lawful
import Phaze.Matching.Sound
import Phaze.Watcher.Lineage
import Phaze.Files.Cascade
import Phaze.Telemetry.Identity
import Phaze.Companion.Storing

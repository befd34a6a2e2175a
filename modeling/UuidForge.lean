import UuidForge.Uuid.Text
import UuidForge.Files.Lemmas
import UuidForge.Generator.Builder
import UuidForge.Node.Listing
import UuidForge.Pool
import UuidForge.Wire.Json
import UuidForge.Wire.MessagePack
import UuidForge.Proofs.Builder.Domain
import UuidForge.Proofs.Layout.Field
import UuidForge.Proofs.Layout.Variant
import UuidForge.Proofs.NameBased.History
import UuidForge.Proofs.Pool.Declared
import UuidForge.Proofs.Pool.Transparent
import UuidForge.Proofs.State.Independence
import UuidForge.Proofs.State.RandomNode
import UuidForge.Proofs.State.Reattach
import UuidForge.Proofs.State.Restart
import UuidForge.Proofs.State.RoundTrip
import UuidForge.Proofs.State.Throttle
import UuidForge.Proofs.TimeBased.Sortable
import UuidForge.Proofs.UnixTime.Monotone
import UuidForge.Proofs.UnixTime.Wait
import UuidForge.Proofs.Custom.Sequence
import UuidForge.Proofs.Uuid.TextForm
import UuidForge.Proofs.Generator.Declared
import UuidForge.Proofs.State.Flags
import UuidForge.Proofs.State.Load
import UuidForge.Proofs.State.Reload
import UuidForge.Proofs.State.Reports
import UuidForge.Proofs.TimeBased.LocalId
import UuidForge.Proofs.Uuid.Sorting
import UuidForge.Proofs.Generator.Overflow
import UuidForge.Proofs.Time.Instant
import UuidForge.Proofs.Time.Incremental
import UuidForge.Proofs.Time.Tracking
import UuidForge.Proofs.Counter.Capacity
import UuidForge.Proofs.Node.Listing

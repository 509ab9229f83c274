import BucketMigration.Config
import BucketMigration.Job.Lemmas
import BucketMigration.Rehearsal.Caller
import BucketMigration.Service.Client
import BucketMigration.Store.Lemmas
import BucketMigration.Proofs.Layout.Parts
import BucketMigration.Proofs.Copy.Conversation
import BucketMigration.Proofs.Copy.Chronicle
import BucketMigration.Proofs.Inevitable
import BucketMigration.Proofs.Copy.Protocol
import BucketMigration.Proofs.Copy.Remaining
import BucketMigration.Proofs.Store.Alike
import BucketMigration.Proofs.Store.Assembly
import BucketMigration.Proofs.World.Solo
import BucketMigration.Proofs.World.Service
import BucketMigration.Proofs.World.Fidelity
import BucketMigration.Proofs.Copy.Verdict
import BucketMigration.Proofs.Job.Moves
import BucketMigration.Proofs.Job.Accounting
import BucketMigration.Proofs.Job.Batches
import BucketMigration.Proofs.Copy.Advance
import BucketMigration.Proofs.Copy.Decision
import BucketMigration.Proofs.Job.Turns
import BucketMigration.Proofs.Job.Halt
import BucketMigration.Proofs.Job.Runs
import BucketMigration.Proofs.Store.Listing
import BucketMigration.Proofs.World.Paths
import BucketMigration.Proofs.World.Pages
import BucketMigration.Proofs.Store.Ledger
import BucketMigration.Proofs.World.Trails
import BucketMigration.Proofs.World.Tracks
import BucketMigration.Proofs.World.Tracked
import BucketMigration.Proofs.World.Frame
import BucketMigration.Proofs.World.Forecast
import BucketMigration.Proofs.World.Sweep
import BucketMigration.Proofs.World.Foresight
import BucketMigration.Proofs.World.Completion
import BucketMigration.Proofs.World.Confluence
import BucketMigration.Proofs.Copy.Lanes
import BucketMigration.Proofs.Job.Slots
import BucketMigration.Proofs.World.Flight
import BucketMigration.Proofs.Copy.Landing
import BucketMigration.Proofs.Job.Bytes
import BucketMigration.Proofs.Batch.Lines
import BucketMigration.Proofs.World.Working
import BucketMigration.Proofs.World.Batched
import BucketMigration.Proofs.World.Drivers
import BucketMigration.Proofs.Job.Past
import BucketMigration.Proofs.World.Past
import BucketMigration.Proofs.World.Sparing
import BucketMigration.Proofs.World.Stamps
import BucketMigration.Proofs.World.Rerun
import BucketMigration.Proofs.Layout.Rounding
import BucketMigration.Proofs.Layout.Partition
import BucketMigration.Proofs.Layout.Stability
import BucketMigration.Proofs.Layout.Unreported
import BucketMigration.Proofs.Store.Etags
import BucketMigration.Proofs.Store.Addresses
import BucketMigration.Proofs.Store.Faults
import BucketMigration.Proofs.Store.Gauge
import BucketMigration.Proofs.Job.Reports
import BucketMigration.Proofs.Job.Deliveries
import BucketMigration.Proofs.Job.Results
import BucketMigration.Proofs.Job.Pending
import BucketMigration.Proofs.Copy.Written
import BucketMigration.Proofs.Job.Written
import BucketMigration.Proofs.World.Reported
import BucketMigration.Proofs.Copy.Retries
import BucketMigration.Proofs.World.Malformed
import BucketMigration.Proofs.Job.Queue
import BucketMigration.Proofs.Service.Failures
import BucketMigration.Proofs.Service.PartsCount
import BucketMigration.Proofs.World.Overwrites
import BucketMigration.Proofs.Rehearsal.Callers

import Replication.Proofs.Pull.Paging
import Replication.Proofs.Push.Order
import Replication.Proofs.Sync.Converge
import Replication.Proofs.Sync.Drain
import Replication.Proofs.Checkpoint.Number
import Replication.Proofs.Coordinator.Sites
import Replication.Coordinator.Schedule
import Replication.Coordinator.Watch
import Replication.Listener.Run
import Replication.Replica.Faults
import Replication.Report.Passes
import Replication.Report.Settings
import Replication.Report.State
import Replication.Scenario.Events
import Replication.Scenario.Passes
import Replication.Scenario.Web
import Replication.Proofs.Replica.Keeping
import Replication.Proofs.Push.Announce
import Replication.Proofs.Session.SingleFlight
import Replication.Proofs.Sync.Writers
import Replication.Proofs.Realtime.Records
import Replication.Proofs.Realtime.Stream
import Replication.Proofs.Collection.Subscription
import Replication.Proofs.Listener.Delay
import Replication.Proofs.Listener.Story
import Replication.Proofs.Session.Freshness
import Replication.Proofs.Pull.Partial
import Replication.Proofs.Pull.Advance
import Replication.Proofs.Replica.ReadBack
import Replication.Proofs.Push.Account
import Replication.Proofs.Push.Ceiling
import Replication.Proofs.Replica.Locality
import Replication.Proofs.Sync.Apart
import Replication.Proofs.Sync.LocalWrite
import Replication.Proofs.Pull.Reset
import Replication.Proofs.Sync.Origin
import Replication.Proofs.Http.Answer
import Replication.Proofs.Http.Document
import Replication.Proofs.Realtime.Written
import Replication.Proofs.Realtime.Frame
import Replication.Proofs.Collection.Backoff
import Replication.Proofs.Collection.Epochs
import Replication.Proofs.Replica.Queue

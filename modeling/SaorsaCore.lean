import SaorsaCore.Lookup.CandidateQueue
import SaorsaCore.Lookup.Deadline
import SaorsaCore.Manager.DialAttempts
import SaorsaCore.Manager.Hints
import SaorsaCore.Manager.LookupResults
import SaorsaCore.Manager.NetworkPaths
import SaorsaCore.Manager.Ownership
import SaorsaCore.Manager.Reports
import SaorsaCore.Manager.Revalidation
import SaorsaCore.Manager.SelfRecord
import SaorsaCore.Manager.SingleFlight
import SaorsaCore.Manager.SnapshotDials
import SaorsaCore.Manager.Versions
import SaorsaCore.Manager.WireSizes
import SaorsaCore.Reachability.Admission
import SaorsaCore.Reachability.Coverage
import SaorsaCore.Reachability.ObserverHistory
import SaorsaCore.Reachability.ObserverRaces
import SaorsaCore.Reachability.PublishableAddresses
import SaorsaCore.Routing.BucketRange
import SaorsaCore.Routing.FastTouch
import SaorsaCore.Routing.Gossip
import SaorsaCore.Routing.StoredAddresses
import SaorsaCore.Routing.Upgrades
import SaorsaCore.Transport.Authentication
import SaorsaCore.Transport.Presence

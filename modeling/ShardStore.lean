import ShardStore.Keyspace.StoreLemmas
import ShardStore.Log.Lifetime
import ShardStore.Log.Race
import ShardStore.Main
import ShardStore.Traffic
import ShardStore.Wire.Reader
import ShardStore.Proofs.Text.Decimal
import ShardStore.Proofs.Text.Utf8
import ShardStore.Proofs.Wire.Units
import ShardStore.Proofs.Wire.RoundTrip
import ShardStore.Proofs.Command.Execution
import ShardStore.Proofs.Log.Replaying
import ShardStore.Proofs.Log.Durability
import ShardStore.Proofs.Log.TornTail
import ShardStore.Proofs.Command.Locality
import ShardStore.Proofs.Placement.Agreement
import ShardStore.Proofs.Cluster.Relaying
import ShardStore.Proofs.Cluster.OneEngine
import ShardStore.Proofs.Wire.Items
import ShardStore.Proofs.Server.Framing
import ShardStore.Proofs.Peering.Ledger
import ShardStore.Proofs.Peering.Pairing
import ShardStore.Proofs.Peering.Requests
import ShardStore.Proofs.Server.Selection
import ShardStore.Proofs.Cluster.Errand
import ShardStore.Proofs.Cluster.Conversing
import ShardStore.Proofs.Placement.Nearest
import ShardStore.Proofs.Placement.Precedence
import ShardStore.Proofs.Cluster.SingleHop
import ShardStore.Proofs.Log.History
import ShardStore.Proofs.Log.Truncation
import ShardStore.Proofs.Log.Resizing
import ShardStore.Proofs.Command.Independence
import ShardStore.Proofs.Log.Overtaking
import ShardStore.Proofs.Log.Atomicity
import ShardStore.Proofs.Command.Breaches
import ShardStore.Proofs.Pool.Undisturbed
import ShardStore.Proofs.Command.Isolation
import ShardStore.Proofs.Log.Appending
import ShardStore.Proofs.Server.Pipelining
import ShardStore.Proofs.Cluster.Lending
import ShardStore.Proofs.Cluster.Parcels
import ShardStore.Proofs.Cluster.Broadcasting
import ShardStore.Proofs.Cluster.EveryNode
import ShardStore.Proofs.Cluster.OneAtATime
import ShardStore.Proofs.Cluster.Enacting
import ShardStore.Proofs.Pool.Closing
import ShardStore.Proofs.Keyspace.Matching
import ShardStore.Proofs.Wire.Registers
import ShardStore.Proofs.Wire.Canonical
import ShardStore.Placement.Seating
import ShardStore.Proofs.Placement.Seating
import ShardStore.Proofs.Placement.Growth
import ShardStore.Log.Sessions
import ShardStore.Proofs.Log.Sessions
import ShardStore.Log.Task
import ShardStore.Proofs.Log.Draining
import ShardStore.Proofs.Server.LogAsStream
import ShardStore.Proofs.Command.Commuting
import ShardStore.Keyspace.Table
import ShardStore.Proofs.Keyspace.FiniteMap
import ShardStore.Proofs.Cluster.Rejecting
import ShardStore.Proofs.Keyspace.Classes
import ShardStore.Proofs.Cluster.Merging
import ShardStore.Proofs.Wire.Underway

import Cougr.Library.Transition
import Cougr.Library.KeyStore
import Cougr.Library.KeyedList
import Cougr.Library.VersionedCache
import Cougr.Library.Replay
import Cougr.Library.NetChange
import Cougr.Library.IdPool
import Cougr.Library.FixedWidth
import Cougr.Library.Program
import Cougr.Library.Pedersen
import Cougr.Library.Projection
import Cougr.Library.Positions
import Cougr.Library.Interning
import Cougr.Macros.Exact
import Cougr.SimpleWorld.PartialMap
import Cougr.SimpleWorld.QueryCache
import Cougr.Commands.Placeholder
import Cougr.Accounts.SessionStorage.AccountMap
import Cougr.Accounts.Session.Budget
import Cougr.Accounts.Session.Coexist
import Cougr.Accounts.Session.Scopes
import Cougr.Accounts.Recovery.Timelock
import Cougr.Accounts.Recovery.Recovered
import Cougr.Accounts.Devices.Theorems
import Cougr.Accounts.Devices.KeepAlive
import Cougr.Accounts.Atomicity
import Cougr.Accounts.Services.Theorems
import Cougr.StorageWorld.Undisciplined
import Cougr.StorageWorld.QueryCache
import Cougr.StorageWorld.WriteBack
import Cougr.StorageWorld.Metadata
import Cougr.StorageWorld.Orphans
import Cougr.StorageWorld.Refinement
import Cougr.StorageWorld.Loads
import Cougr.ArchetypeWorld.Refinement
import Cougr.ArchetypeWorld.QueryCache
import Cougr.ArchetypeWorld.Typed
import Cougr.Migration.StorageKinds
import Cougr.Migration.EntityIds
import Cougr.Reactive.NetChanges
import Cougr.Reactive.Observations
import Cougr.Plugin.Registration
import Cougr.Ecs.Entity.Generations
import Cougr.Ecs.Entity.Partition
import Cougr.Ecs.Storage.PartialMap
import Cougr.Ecs.World.Leftovers
import Cougr.Ecs.World.Resources
import Cougr.Ecs.System.Theorems
import Cougr.Ecs.Query
import Cougr.Debug.Snapshot.Diff
import Cougr.Debug.Introspect.Theorems
import Cougr.Zk.Groth16.Theorems
import Cougr.Zk.Scalars
import Cougr.Zk.Circuits
import Cougr.Zk.Merkle.Inclusion
import Cougr.Zk.Merkle.OnChain
import Cougr.Zk.Merkle.DomainSeparation
import Cougr.Zk.Merkle.Sparse.Theorems
import Cougr.Zk.Merkle.Sparse.Commitment
import Cougr.Zk.Systems.Expiry
import Cougr.Zk.Systems.Markers
import Cougr.GuildArena.Records

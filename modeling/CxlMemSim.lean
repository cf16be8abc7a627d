import CxlMemSim.Bench.Locks
import CxlMemSim.Coherency.Agreement
import CxlMemSim.Coherency.Copies
import CxlMemSim.Coherency.Counters
import CxlMemSim.Coherency.HeadCopies
import CxlMemSim.Coherency.Pool
import CxlMemSim.Coherency.Shares
import CxlMemSim.Dist.Deadlock
import CxlMemSim.Dist.Interleave
import CxlMemSim.Dist.Join
import CxlMemSim.Dist.Matching
import CxlMemSim.Dist.Membership
import CxlMemSim.Dist.Queues
import CxlMemSim.Dist.Ranges
import CxlMemSim.Dist.Routes
import CxlMemSim.Dist.Secrets
import CxlMemSim.Dist.SharedMemory
import CxlMemSim.Fabric.Access
import CxlMemSim.Fabric.Accounting
import CxlMemSim.Fabric.Congestion
import CxlMemSim.Fabric.Conservation
import CxlMemSim.Fabric.Credits
import CxlMemSim.Fabric.Invalidation
import CxlMemSim.Fabric.Lru
import CxlMemSim.Fabric.Migration
import CxlMemSim.Fabric.Placement
import CxlMemSim.Fabric.ReorderBuffer
import CxlMemSim.Fabric.Retry
import CxlMemSim.Fabric.Revocation
import CxlMemSim.Fabric.Rob
import CxlMemSim.Fabric.RoundRobin
import CxlMemSim.Fabric.Tags
import CxlMemSim.Fabric.Tlb
import CxlMemSim.Fabric.Unique
import CxlMemSim.Guest.BatchWire
import CxlMemSim.Guest.Caches
import CxlMemSim.Guest.Coherent
import CxlMemSim.Guest.Completion
import CxlMemSim.Guest.ContextOnce
import CxlMemSim.Guest.Copy2d
import CxlMemSim.Guest.ElfSize
import CxlMemSim.Guest.Fatbin
import CxlMemSim.Guest.GapTable
import CxlMemSim.Guest.Htod
import CxlMemSim.Guest.Isolation
import CxlMemSim.Guest.LocalStorage
import CxlMemSim.Guest.Registers
import CxlMemSim.Guest.SpanTable
import CxlMemSim.Guest.Tokens
import CxlMemSim.Mpi.Allocate
import CxlMemSim.Mpi.Collectives
import CxlMemSim.Server.Advertised
import CxlMemSim.Server.Atomics
import CxlMemSim.Server.Failure
import CxlMemSim.Server.Invalidate
import CxlMemSim.Server.Labels
import CxlMemSim.Server.Metadata
import CxlMemSim.Server.Ownership
import CxlMemSim.Server.PgasBackings
import CxlMemSim.Server.PgasManagement
import CxlMemSim.Server.Protection
import CxlMemSim.Server.ShmRing
import CxlMemSim.Ssd.Clock
import CxlMemSim.Ssd.Interleaving
import CxlMemSim.Ssd.Range
import CxlMemSim.Ssd.Waiters

import ArenaAlloc.Script.Handle
import ArenaAlloc.Script.Jobs
import ArenaAlloc.Script.Thread
import ArenaAlloc.Workload
import ArenaAlloc.Proofs.Extent
import ArenaAlloc.Proofs.Header
import ArenaAlloc.Proofs.Coalesce
import ArenaAlloc.Proofs.Runs
import ArenaAlloc.Proofs.FreeList
import ArenaAlloc.Proofs.Insertion
import ArenaAlloc.Proofs.Carving
import ArenaAlloc.Proofs.Session
import ArenaAlloc.Proofs.Soundness
import ArenaAlloc.Proofs.Invariant
import ArenaAlloc.Proofs.Effect
import ArenaAlloc.Proofs.CarvedRegion
import ArenaAlloc.Proofs.Isolation
import ArenaAlloc.Proofs.FreeListShape
import ArenaAlloc.Proofs.DoubleFree
import ArenaAlloc.Proofs.Refusal
import ArenaAlloc.Proofs.Ceiling
import ArenaAlloc.Proofs.Growing
import ArenaAlloc.Proofs.Placement
import ArenaAlloc.Proofs.Retrace
import ArenaAlloc.Proofs.Replay
import ArenaAlloc.Proofs.PowerLaw
import ArenaAlloc.Proofs.ChunkBases
import ArenaAlloc.Proofs.Checked
import ArenaAlloc.Proofs.Checks
import ArenaAlloc.Proofs.FreeOrder
import ArenaAlloc.Proofs.ZeroFill
import ArenaAlloc.Proofs.Reallocation
import ArenaAlloc.Proofs.Carrying
import ArenaAlloc.Proofs.Occupancy
import ArenaAlloc.Proofs.Safety
import ArenaAlloc.Proofs.Recovery
import ArenaAlloc.Proofs.Recycling
import ArenaAlloc.Proofs.ProcessEffect
import ArenaAlloc.Proofs.ScriptEffect
import ArenaAlloc.Proofs.Configuration
import ArenaAlloc.Proofs.Shortage
import ArenaAlloc.Proofs.ThreadIsolation
import ArenaAlloc.Proofs.FrontEnds
import ArenaAlloc.Proofs.Accounting
import ArenaAlloc.Proofs.Reentrancy
import ArenaAlloc.Proofs.LazyCreation
import ArenaAlloc.Proofs.PoolRuns
import ArenaAlloc.Proofs.PoolCalls
import ArenaAlloc.Proofs.PoolOrder
import ArenaAlloc.Proofs.Churn
import ArenaAlloc.Proofs.ChunkLength
import ArenaAlloc.Proofs.EventLog

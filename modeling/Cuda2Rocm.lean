import Cuda2Rocm.Foundation.Words
import Cuda2Rocm.Foundation.Table
import Cuda2Rocm.Foundation.Runs
import Cuda2Rocm.Foundation.Simulations
import Cuda2Rocm.Foundation.AtomicSets
import Cuda2Rocm.Foundation.Amortised
import Cuda2Rocm.Foundation.CasLoop
import Cuda2Rocm.Foundation.Matching
import Cuda2Rocm.Foundation.Queues
import Cuda2Rocm.Foundation.Chunks
import Cuda2Rocm.Foundation.Reading
import Cuda2Rocm.Foundation.Copies
import Cuda2Rocm.Foundation.Handles
import Cuda2Rocm.Foundation.CountedHeap
import Cuda2Rocm.Foundation.Callbacks
import Cuda2Rocm.Foundation.Requests
import Cuda2Rocm.Foundation.GridStride
import Cuda2Rocm.Foundation.Streams
import Cuda2Rocm.Foundation.Draining
import Cuda2Rocm.Foundation.Barriers
import Cuda2Rocm.Foundation.OpenAddressing
import Cuda2Rocm.Foundation.Strides
import Cuda2Rocm.Foundation.Rotations
import Cuda2Rocm.Foundation.Mixing
import Cuda2Rocm.Foundation.Text
import Cuda2Rocm.Cuco.StaticSet.Model
import Cuda2Rocm.Cuco.StaticSet.Runs
import Cuda2Rocm.Cuco.StaticSet.LostKeys
import Cuda2Rocm.Cuco.StaticSet.Stored
import Cuda2Rocm.Cuco.StaticSet.Sentinel
import Cuda2Rocm.Cuco.StaticSet.Queries
import Cuda2Rocm.Cuco.BloomFilter.Model
import Cuda2Rocm.Cuco.BloomFilter.Runs
import Cuda2Rocm.Cuco.BloomFilter.Membership
import Cuda2Rocm.Cuco.BloomFilter.Reach
import Cuda2Rocm.Cuco.XxHash.Model
import Cuda2Rocm.Cuco.XxHash.Published
import Cuda2Rocm.Cuco.XxHash.Implements
import Cuda2Rocm.Cuco.XxHash.FixedWidth
import Cuda2Rocm.Cuco.Launch
import Cuda2Rocm.Cuco.Accesses
import Cuda2Rocm.Cuco.AccessRuns
import Cuda2Rocm.Cuco.StaticSet.Streams
import Cuda2Rocm.Cuco.StaticSet.WaitFree
import Cuda2Rocm.Cuco.BloomFilter.Streams
import Cuda2Rocm.Cuco.BloomFilter.WaitFree
import Cuda2Rocm.Cuco.OddStrides
import Cuda2Rocm.Cudf.HostData
import Cuda2Rocm.Cudf.GpuToHost
import Cuda2Rocm.Cudf.SharedBuffer
import Cuda2Rocm.Data.DataBatch.Model
import Cuda2Rocm.Data.DataBatch.Views
import Cuda2Rocm.Data.DataBatch.Updates
import Cuda2Rocm.Data.DataBatch.Location
import Cuda2Rocm.Data.DataBatch.Lifetimes
import Cuda2Rocm.Data.DataRepository.Model
import Cuda2Rocm.Data.DataRepository.Partitions
import Cuda2Rocm.Data.DataRepositoryManager
import Cuda2Rocm.Data.DataRepositoryManager.Routing
import Cuda2Rocm.Data.ConverterRegistry
import Cuda2Rocm.Memory.Reservation
import Cuda2Rocm.Memory.Space.Model
import Cuda2Rocm.Memory.Space.Accounting
import Cuda2Rocm.Memory.Space.Grants
import Cuda2Rocm.Memory.Space.Resizing
import Cuda2Rocm.Memory.Space.Resizing.Progress
import Cuda2Rocm.Memory.Space.Resizing.Refinement
import Cuda2Rocm.Memory.ReservationManager.Model
import Cuda2Rocm.Memory.ReservationManager.Refusals
import Cuda2Rocm.Memory.ReservationManager.Lifecycle
import Cuda2Rocm.Memory.ReservationManager.Teardown
import Cuda2Rocm.Memory.ReservationManager.ActiveCount
import Cuda2Rocm.Memory.ReservationManager.Configuration
import Cuda2Rocm.Memory.ReservationManager.LookUp
import Cuda2Rocm.Memory.ReservationManager.Preference
import Cuda2Rocm.Memory.Topology
import Cuda2Rocm.Memory.ReservationManager.Discovered
import Cuda2Rocm.Memory.ReservationManager.BesideOthers
import Cuda2Rocm.Memory.ReservationManager.Accounts
import Cuda2Rocm.Memory.ReservationManager.Progress
import Cuda2Rocm.Memory.Growth
import Cuda2Rocm.Memory.FixedSizeHost.Counter
import Cuda2Rocm.Memory.FixedSizeHost.Model
import Cuda2Rocm.Memory.FixedSizeHost.Blocks
import Cuda2Rocm.Memory.FixedSizeHost.Moves
import Cuda2Rocm.Memory.FixedSizeHost.Sections
import Cuda2Rocm.Memory.FixedSizeHost.Pinned
import Cuda2Rocm.Memory.FixedSizeHost.Balance
import Cuda2Rocm.Memory.FixedSizeHost.Trackers
import Cuda2Rocm.Memory.FixedSizeHost.Arenas
import Cuda2Rocm.Memory.FixedSizeHost.Requests
import Cuda2Rocm.Memory.FixedSizeHost.Isolation
import Cuda2Rocm.Memory.FixedSizeHost.Covered
import Cuda2Rocm.Memory.FixedSizeHost.Shares
import Cuda2Rocm.Memory.FixedSizeHost.OwnSteps
import Cuda2Rocm.Memory.FixedSizeHost.Exactness
import Cuda2Rocm.Memory.FixedSizeHost.Guarantee
import Cuda2Rocm.Memory.FixedSizeHost.Granted
import Cuda2Rocm.Memory.FixedSizeHost.Alone
import Cuda2Rocm.Memory.FixedSizeHost.AloneCalls
import Cuda2Rocm.Memory.FixedSizeHost.Admission
import Cuda2Rocm.Memory.FixedSizeHost.Arithmetic
import Cuda2Rocm.Memory.FixedSizeHost.Peak
import Cuda2Rocm.Memory.FixedSizeHost.PeakRuns
import Cuda2Rocm.Memory.FixedSizeHost.Progress
import Cuda2Rocm.Memory.HostSpace
import Cuda2Rocm.Memory.ResourceAdaptor.Model
import Cuda2Rocm.Memory.ResourceAdaptor.Custody
import Cuda2Rocm.Memory.ResourceAdaptor.Accounting
import Cuda2Rocm.Memory.ResourceAdaptor.Moves
import Cuda2Rocm.Memory.ResourceAdaptor.Placement
import Cuda2Rocm.Memory.ResourceAdaptor.Runs
import Cuda2Rocm.Memory.ResourceAdaptor.Calls
import Cuda2Rocm.Memory.ResourceAdaptor.Limit
import Cuda2Rocm.Memory.ResourceAdaptor.Pairs
import Cuda2Rocm.Memory.ResourceAdaptor.Tracker
import Cuda2Rocm.Memory.ResourceAdaptor.LimitPolicies
import Cuda2Rocm.Memory.ResourceAdaptor.Ownership
import Cuda2Rocm.Memory.ResourceAdaptor.Releases
import Cuda2Rocm.Memory.ResourceAdaptor.Resets
import Cuda2Rocm.Memory.ResourceAdaptor.SelfLocking
import Cuda2Rocm.Memory.ResourceAdaptor.Deadlock
import Cuda2Rocm.Memory.StreamPool
import Cuda2Rocm.Memory.StreamPriority
import Cuda2Rocm.Memory.StreamPool.Lifetimes
import Cuda2Rocm.Memory.DiskAccessLimiter
import Cuda2Rocm.Memory.DiskAccessLimiter.Progress
import Cuda2Rocm.Shims.MemcpyAsync

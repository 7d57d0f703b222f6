import TorchSupa.Graph.Disjointness
import TorchSupa.Graph.Clearing
import TorchSupa.Host.Pairing
import TorchSupa.Ipc.Expiry
import TorchSupa.Ipc.Sharing
import TorchSupa.Bccl.Lifecycle
import TorchSupa.Bccl.GroupBalance
import TorchSupa.Distributed.WholeRecorder
import TorchSupa.Distributed.Uneven
import TorchSupa.Distributed.Issuing
import TorchSupa.Distributed.Pending
import TorchSupa.Distributed.Pointers
import TorchSupa.Distributed.Charging
import TorchSupa.Distributed.Hooks
import TorchSupa.Distributed.Registered
import TorchSupa.Distributed.Sequence
import TorchSupa.SymmMem.Barriers
import TorchSupa.SymmMem.Rendezvous
import TorchSupa.SymmMem.Addresses
import TorchSupa.SymmMem.ReduceScatter
import TorchSupa.Aten.CrossEntropyRefines
import TorchSupa.Aten.FastPath
import TorchSupa.Aten.GraphCaching
import TorchSupa.Distributed.Splitting
import TorchSupa.Profiler.TracerOwnership
import TorchSupa.MemPools.Routing
import TorchSupa.MemPools.EmptyCache
import TorchSupa.Profiler.TensorIdentity
import TorchSupa.Graph.DropIn
import TorchSupa.Profiler.TreeBuilding
import TorchSupa.SymmMem.SlotBounds
import TorchSupa.SymmMem.BufferViews
import TorchSupa.SymmMem.FdDelivery
import TorchSupa.SymmMem.MulticastSetup
import TorchSupa.SymmMem.VectorBounds
import TorchSupa.Recorder.JsonFaithful
import TorchSupa.Handles.DeviceThreadHandlePool
import TorchSupa.Handles.Reuse
import TorchSupa.Pluggable.Metadata
import TorchSupa.Tracing.LastTraces
import TorchSupa.Settings.Parsing
import TorchSupa.Graph.Prologues
import TorchSupa.Distributed.UniqueIds
import TorchSupa.MemPools.AllocateTensor
import TorchSupa.Aten.TileAccesses
import TorchSupa.Aten.ReduceStaging
import TorchSupa.Aten.VectorizedReduce
import TorchSupa.Aten.HybridBinary
import TorchSupa.Aten.OffsetCalculator
import TorchSupa.Profiler.TimestampAdjustment
import TorchSupa.Aten.NestedAttention
import TorchSupa.Profiler.ForwardBackward
import TorchSupa.Profiler.PostProcess
import TorchSupa.Profiler.Schedule
import TorchSupa.Aten.CrossEntropyProb
import TorchSupa.Aten.NormalizeFused
import TorchSupa.Aten.Addmv
import TorchSupa.Aten.Baddbmm
import TorchSupa.Codegen.RegistrationBlocks
import TorchSupa.Codegen.CtrlState
import TorchSupa.Ipc.Rebuilding
import TorchSupa.Amp.GradScaler
import TorchSupa.Lazy.DeferredCalls
import TorchSupa.MemPools.Holding

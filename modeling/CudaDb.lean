import CudaDb.Lib.Machine
import CudaDb.Lib.Table
import CudaDb.Lib.SlabPool
import CudaDb.Lib.Threads
import CudaDb.Lib.Commute
import CudaDb.Model.GpuCache
import CudaDb.Verif.GpuReadBack
import CudaDb.Verif.GpuCounters
import CudaDb.Verif.ServerReset
import CudaDb.Verif.ServerCycle
import CudaDb.Verif.ServerRequests
import CudaDb.Verif.BufferKeys
import CudaDb.Verif.BufferRepresentation
import CudaDb.Verif.BufferPacking
import CudaDb.Verif.FlushCommute
import CudaDb.Verif.SyncDrain
import CudaDb.Verif.SsdFetch
import CudaDb.Verif.RamSlabs
import CudaDb.Verif.MogInvariant
import CudaDb.Verif.MogPaths
import CudaDb.Verif.MogLast
import CudaDb.Verif.MogReset
import CudaDb.Verif.FlushLoss
import CudaDb.Verif.FleetBudget
import CudaDb.Verif.WriteProgress
import CudaDb.Verif.ClientReplies
import CudaDb.Verif.ImageMog
import CudaDb.Verif.FlushOrder
import CudaDb.Lib.Simulation
import CudaDb.Model.Readers
import CudaDb.Verif.RamReaders
import CudaDb.Verif.WorkerBuffer
import CudaDb.Model.FetchFaults
import CudaDb.Verif.FetchMarks
import CudaDb.Verif.GpuEviction
import CudaDb.Model.GpuReaders
import CudaDb.Verif.GpuReaders
import CudaDb.Verif.GpuBounds
import CudaDb.Verif.ClientSlots
import CudaDb.Model.MessageBytes
import CudaDb.Verif.MessageBytes
import CudaDb.Verif.MogOnce
import CudaDb.Lib.SegmentedLog
import CudaDb.Verif.FleetTransparent
import CudaDb.Verif.FleetService
import CudaDb.Verif.FleetProgress
import CudaDb.Verif.FleetMemory
import CudaDb.Verif.SsdFootprint
import CudaDb.Verif.FleetSsd
import CudaDb.Verif.FleetLayers
import CudaDb.Verif.BufferLog
import CudaDb.Lib.FifoWindow
import CudaDb.Verif.GpuWindow
import CudaDb.Verif.DatumRuns
import CudaDb.Verif.EndToEnd
import CudaDb.Verif.EndToEndProgress
import CudaDb.Model.ThreadPool
import CudaDb.Verif.ThreadPool
import CudaDb.Verif.ThreadPoolRuns
import CudaDb.Verif.PoolPolls
import CudaDb.Model.ServerPools
import CudaDb.Verif.ServerPools

import Mooncake.Coherence.OwnWrite
import Mooncake.Dummy.GetInto
import Mooncake.Dummy.HotMapping
import Mooncake.Dummy.Mapped
import Mooncake.Dummy.PinBalance
import Mooncake.Dummy.WholeObject
import Mooncake.Library.Indexed
import Mooncake.Metadata.Servers
import Mooncake.Put.AlikePuts
import Mooncake.Put.DiskReplica
import Mooncake.Put.Report
import Mooncake.Put.UpsertCommit
import Mooncake.Rdma.Batches
import Mooncake.Rdma.DescRefresh
import Mooncake.Rdma.Failover
import Mooncake.Rdma.FreshMrs
import Mooncake.Rdma.GidReprobe
import Mooncake.Rdma.Lifecycle
import Mooncake.Rdma.LocationScan
import Mooncake.Rdma.RegionLookup
import Mooncake.Rdma.SegmentsText
import Mooncake.Read.CachedLease
import Mooncake.Read.Chosen
import Mooncake.Read.IndexCorrect
import Mooncake.Read.MultiSlices
import Mooncake.Read.Validated
import Mooncake.Replication.TaskExecution
import Mooncake.SameNode.Reads
import Mooncake.Segment.ExactlyOnce
import Mooncake.Segment.FreedMemory
import Mooncake.Shm.CarefulCalls
import Mooncake.Spdk.Invalidate
import Mooncake.Types
import Mooncake.Vllm.Chunked
import Mooncake.Vllm.KeyInputs
import Mooncake.Vllm.Loading
import Mooncake.Vllm.Marker
import Mooncake.Vllm.Matching
import Mooncake.Vllm.PrefixLookup
import Mooncake.Write.ReadBack

import ViCell.Invariant.SchedulerRuns
import ViCell.Invariant.FrozenTask
import ViCell.Invariant.RunningCaller
import ViCell.Invariant.References
import ViCell.Grants.Lifetime
import ViCell.Cells.FileCaps
import ViCell.Audit.Queue
import ViCell.Cells.MmioRegions
import ViCell.Cells.Delegation
import ViCell.Snapshot.Partition
import ViCell.Disk.BlockAccess
import ViCell.Memory.HeapQuota
import ViCell.Cells.ArgDelivery
import ViCell.Vfs.QuotaRuns
import ViCell.Vfs.PageCache
import ViCell.Net.Capabilities
import ViCell.Net.TcpStream
import ViCell.Ostd.StaleBytes
import ViCell.Http.ChunkedDecoding
import ViCell.Virtio.ChainHandling
import ViCell.Nvme.Completions
import ViCell.Ostd.CallAnswers
import ViCell.Core.ReadyMaps
import ViCell.Invariant.Selection
import ViCell.Invariant.RecvTimeouts
import ViCell.Invariant.Deadlines
import ViCell.Invariant.EventWaits
import ViCell.Loader.AddressSlots
import ViCell.Net.GuestBridge
import ViCell.Cells.Allowlists
import ViCell.Invariant.LoadedTasks
import ViCell.Loader.SignedPayload
import ViCell.Core.UserLog
import ViCell.Vfs.QuotaTransfer
import ViCell.Hypervisor.GuestImages
import ViCell.Services.Modifiers
import ViCell.Shell.Arguments
import ViCell.Http.ChatBody
import ViCell.Posix.Strings
import ViCell.Hypervisor.ListRegisters
import ViCell.Memory.LastMapping
import ViCell.Shell.CommandLists

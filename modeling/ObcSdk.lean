import ObcSdk.Lib.Store
import ObcSdk.Lib.Journal
import ObcSdk.Lib.Crc
import ObcSdk.Lib.CrcErrors
import ObcSdk.Lib.LittleEndian
import ObcSdk.Lib.Checked
import ObcSdk.Lib.Numeral
import ObcSdk.Lib.CString
import ObcSdk.Lib.Failover
import ObcSdk.Lib.Words
import ObcSdk.Lib.Ledger
import ObcSdk.Lib.Runs
import ObcSdk.Lib.Segments
import ObcSdk.Lib.Registry
import ObcSdk.Lib.Roster
import ObcSdk.Lib.Paths
import ObcSdk.Lib.CText
import ObcSdk.Lib.Sections
import ObcSdk.Lib.Traced
import ObcSdk.Lib.BubbleSort
import ObcSdk.Lib.CrcReflect
import ObcSdk.Lib.Masks
import ObcSdk.Lib.Spans
import ObcSdk.Lib.Arena
import ObcSdk.Lib.Slots
import ObcSdk.Kernel.Obcbase
import ObcSdk.Kernel.SharedMemory
import ObcSdk.LinkNode.TcpServer
import ObcSdk.LinkNode.ConfigParser
import ObcSdk.LinkNode.ConfigJson
import ObcSdk.Lvgl.SysInfo
import ObcSdk.Lvgl.TomatoTimer
import ObcSdk.Lvgl.StockInfo
import ObcSdk.Rootfs.Obcblock
import ObcSdk.Rootfs.Startup
import ObcSdk.Amp.LibcStubs
import ObcSdk.Amp.LoadP
import ObcSdk.Amp.TimerP
import ObcSdk.Amp.VsUart
import ObcSdk.Amp.Heap4
import ObcSdk.Amp.OsalPool
import ObcSdk.Amp.TaskP
import ObcSdk.AutoMem.ReservedMemory
import ObcSdk.Boot.Table
import ObcSdk.Boot.DeviceTree
import ObcSdk.Boot.FdtOffsets
import ObcSdk.Boot.Partitions
import ObcSdk.Boot.World
import ObcSdk.Boot.Pack
import ObcSdk.Boot.Read
import ObcSdk.Boot.Write
import ObcSdk.Boot.Sparse
import ObcSdk.Boot.Rootfs
import ObcSdk.Boot.Erase
import ObcSdk.Boot.Slot
import ObcSdk.Boot.Bootargs
import ObcSdk.Boot.Blkdevparts
import ObcSdk.Boot.Board
import ObcSdk.Boot.Commandline
import ObcSdk.Boot.Bootk
import ObcSdk.Boot.Updatex
import ObcSdk.Boot.Console
import ObcSdk.Tools.Sign
import ObcSdk.Tools.Unsign
import ObcSdk.Tools.FlashTfSigned
import ObcSdk.Tools.Kimg
import ObcSdk.Tools.Mkkimg
import ObcSdk.Tools.Umkkimg
import ObcSdk.Boot.Bench
import ObcSdk.Properties.ReadBounds
import ObcSdk.Properties.RoundTrip
import ObcSdk.Properties.CrashSafety
import ObcSdk.Properties.FullUpdate
import ObcSdk.Properties.Bootable
import ObcSdk.Properties.KernelArgs
import ObcSdk.Properties.Isolation
import ObcSdk.Properties.Rejection
import ObcSdk.Properties.SlotFailover
import ObcSdk.Properties.BootChain
import ObcSdk.Properties.WholeKernel
import ObcSdk.Properties.BootDevice
import ObcSdk.Properties.Partitions
import ObcSdk.Properties.ArgsBuffers
import ObcSdk.Properties.BootSource
import ObcSdk.Properties.Descriptors
import ObcSdk.Properties.Segmentation
import ObcSdk.Properties.KimgRoundTrip
import ObcSdk.Properties.Checksums
import ObcSdk.Properties.HostPackages
import ObcSdk.Properties.Environment
import ObcSdk.Properties.Bootarg
import ObcSdk.Properties.Erase
import ObcSdk.Properties.HandOver
import ObcSdk.Properties.DeviceLinks
import ObcSdk.Properties.AppfsMount
import ObcSdk.Properties.SharedMapping
import ObcSdk.Properties.KimgHeader
import ObcSdk.Properties.KimgVerify
import ObcSdk.Properties.Extraction
import ObcSdk.Properties.FileTypes
import ObcSdk.Properties.ConfigRoundTrip
import ObcSdk.Properties.DeviceRegistry
import ObcSdk.Properties.StaleData
import ObcSdk.Properties.PauseResume
import ObcSdk.Properties.Pomodoro
import ObcSdk.Properties.StockConfig
import ObcSdk.Properties.QuoteFields
import ObcSdk.Properties.PrintBounds
import ObcSdk.Properties.PrintText
import ObcSdk.Properties.LoadAccounting
import ObcSdk.Properties.LoadPercent
import ObcSdk.Properties.TimerPeriod
import ObcSdk.Properties.TimerPool
import ObcSdk.Properties.BaudRate
import ObcSdk.Properties.ReservedMemory
import ObcSdk.Properties.FileChecksum
import ObcSdk.Properties.PartsSearch
import ObcSdk.Properties.HeapList
import ObcSdk.Properties.HeapCalls
import ObcSdk.Properties.HeapRuns
import ObcSdk.Properties.HeapAccounts
import ObcSdk.Properties.HeapUsers
import ObcSdk.Properties.OsalPools
import ObcSdk.Properties.Tasks

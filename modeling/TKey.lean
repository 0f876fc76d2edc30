import TKey.Lib.ByteMemory
import TKey.Lib.NorFlash
import TKey.Lib.PackedLayout
import TKey.Lib.MirroredRecord
import TKey.Lib.PrivateView
import TKey.Lib.ChunkedStream
import TKey.Lib.RingBuffer
import TKey.Lib.Register
import TKey.Lib.ScrambledMemory
import TKey.Lib.Handshake
import TKey.Lib.BoundedQueue
import TKey.Lib.StopSignal
import TKey.Lib.Rv32
import TKey.Lib.BlockStream
import TKey.Blake2s
import TKey.Layout
import TKey.FlashChip
import TKey.Machine
import TKey.Flash
import TKey.PartitionTable
import TKey.Access
import TKey.Storage
import TKey.PreloadApp
import TKey.TkeyImage
import TKey.FlashCopy
import TKey.Reset
import TKey.SyscallHandler
import TKey.Proto
import TKey.UsbMode
import TKey.FrameStream
import TKey.PacketCounter
import TKey.UsbControl
import TKey.Ch552
import TKey.UsbToUart
import TKey.FrameUpload
import TKey.UartToUsb
import TKey.BusReset
import TKey.ReceiveInterrupts
import TKey.EndpointCommands
import TKey.ApplicationFpga
import TKey.Peripherals
import TKey.ScrambledRam
import TKey.PatchUdsUdi
import TKey.AppBinToSpramHex
import TKey.TimerDuration
import TKey.EntropyWords
import TKey.TouchEvents
import TKey.UartCore
import TKey.SerialFrames
import TKey.UartLoopback
import TKey.FlowControl
import TKey.ReceiveQueue
import TKey.SpiTransfer
import TKey.SpiDriver
import TKey.WholeFpga
import TKey.AppMode
import TKey.UdsReadOnce
import TKey.MemoryMap
import TKey.ForbiddenCode
import TKey.FlaggedAccess
import TKey.Main
import TKey.System
import TKey.FlashProgramming
import TKey.TableRoundTrip
import TKey.PointerConfinement
import TKey.FailedCalls
import TKey.MainLoop
import TKey.FlashRegions
import TKey.Session
import TKey.BootInvariant
import TKey.MeasuredStart
import TKey.RegionIntegrity
import TKey.Agreement
import TKey.RebootTransparency
import TKey.AppInstall
import TKey.ClientLoading
import TKey.Privilege
import TKey.CdiSeparation
import TKey.ChainedStart
import TKey.PowerLoss
import TKey.StorageView
import TKey.StorageRoundTrip
import TKey.StorageIsolation
import TKey.StorageEffect
import TKey.TablePowerLoss
import TKey.PowerSession
import TKey.StorageSecrecy
import TKey.Assembly
import TKey.SyscallEntry
import TKey.SyscallCall
import TKey.Startup
import TKey.Blake2sBlocks
import TKey.SendControl
import TKey.HostWrites
import TKey.HostCommands
import TKey.BusMemory
import TKey.RamScrambling
import TKey.HostLoading
import TKey.FlashWires
import TKey.CdiProgram

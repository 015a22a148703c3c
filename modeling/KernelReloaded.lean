import KernelReloaded.Core.ShiftRegister
import KernelReloaded.Core.Memory
import KernelReloaded.Core.CText
import KernelReloaded.Core.CLines
import KernelReloaded.Core.Transition
import KernelReloaded.Core.Ring
import KernelReloaded.Core.KeyedWrites
import KernelReloaded.Core.LastOccurrence
import KernelReloaded.Core.Pieces
import KernelReloaded.Core.PatternPatch
import KernelReloaded.Core.AsyncCalls
import KernelReloaded.Core.LinkedList
import KernelReloaded.Core.PairTlb
import KernelReloaded.Loader.Crc32
import KernelReloaded.Loader.CrcPatch
import KernelReloaded.Loader.CrcBursts
import KernelReloaded.Loader.ElfSections
import KernelReloaded.Loader.SectionSafety
import KernelReloaded.Loader.SectionBounds
import KernelReloaded.Loader.SectionReads
import KernelReloaded.Loader.SectionVerify
import KernelReloaded.Loader.SectionCopy
import KernelReloaded.Loader.ElfClasses
import KernelReloaded.Loader.BootLayout
import KernelReloaded.Loader.FileLoading
import KernelReloaded.Loader.SbiosScan
import KernelReloaded.Loader.SbiosTracking
import KernelReloaded.Loader.SbiosLoading
import KernelReloaded.Loader.SbiosAccess
import KernelReloaded.Loader.Configuration
import KernelReloaded.Loader.ConfigRoundTrip
import KernelReloaded.Loader.ConfigSearch
import KernelReloaded.Loader.ConfigReaders
import KernelReloaded.Loader.MenuAccess
import KernelReloaded.Loader.ConfigOrder
import KernelReloaded.Loader.FileBrowser
import KernelReloaded.Loader.WaitForUser
import KernelReloaded.Loader.BootLog
import KernelReloaded.Loader.BootLogPanel
import KernelReloaded.Loader.ErrorQueue
import KernelReloaded.Loader.Menu
import KernelReloaded.Loader.CommandLine
import KernelReloaded.Loader.CommandLineScan
import KernelReloaded.Loader.ModuleTable
import KernelReloaded.Loader.ModuleRelease
import KernelReloaded.Loader.LibsdPatch
import KernelReloaded.Kernel.Semaphores
import KernelReloaded.Kernel.Mmu
import KernelReloaded.Kernel.Interrupts
import KernelReloaded.Sbios.SifRpc
import KernelReloaded.Sbios.RpcOwnership
import KernelReloaded.Sbios.RpcServers
import KernelReloaded.Sbios.RpcRequests
import KernelReloaded.Sbios.DCache
import KernelReloaded.Sbios.StrNCmp
import KernelReloaded.Sbios.SifCmd
import KernelReloaded.Sbios.SifDma
import KernelReloaded.Sbios.DmaTags
import KernelReloaded.Sbios.DmaRing
import KernelReloaded.Sbios.DmaStat
import KernelReloaded.Sbios.DmaSizes
import KernelReloaded.Sbios.CdvdCalls
import KernelReloaded.Sbios.CdvdLocks
import KernelReloaded.Sbios.McCalls
import KernelReloaded.Sbios.McOrder
import KernelReloaded.Sbios.McSplit
import KernelReloaded.Iop.SharedMem
import KernelReloaded.Iop.SmapQueue
import KernelReloaded.Iop.SmapOrder
import KernelReloaded.Core.CharCells
import KernelReloaded.Loader.InfoBuffer
import KernelReloaded.Loader.LineEditor
import KernelReloaded.Core.WordScan
import KernelReloaded.Core.Mips
import KernelReloaded.Core.Rounding
import KernelReloaded.Loader.RteImage
import KernelReloaded.Loader.RteElf
import KernelReloaded.Loader.RteSbios
import KernelReloaded.Loader.TextLines
import KernelReloaded.Sbios.RomDir
import KernelReloaded.Core.WordBlocks
import KernelReloaded.Iop.SmapReceive
import KernelReloaded.Core.ByteWords
import KernelReloaded.Core.R5900
import KernelReloaded.Sbios.MemCopy
import KernelReloaded.Core.Circular
import KernelReloaded.Iop.SmapTransmit
import KernelReloaded.Iop.SmapWire
import KernelReloaded.Iop.SmapArrivals
import KernelReloaded.Core.SlotMemory
import KernelReloaded.Core.Simulation
import KernelReloaded.Iop.DiscRead
import KernelReloaded.Iop.DiscFiles
import KernelReloaded.Core.CBytes
import KernelReloaded.Iop.DiscDirectory
import KernelReloaded.Loader.SectionWrites

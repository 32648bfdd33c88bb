import ForsKernel.Lib.LinkedList
import ForsKernel.Lib.Transition
import ForsKernel.Lib.Simulation
import ForsKernel.Lib.Dyadic
import ForsKernel.Lib.CInt
import ForsKernel.Lib.RadixForest
import ForsKernel.Lib.Chain
import ForsKernel.Lib.Tally
import ForsKernel.Lib.RingBuffer
import ForsKernel.Lib.Machine
import ForsKernel.Lib.LongestPrefix
import ForsKernel.Lib.TileSizes
import ForsKernel.Memory.Frames
import ForsKernel.Memory.FrameInvariant
import ForsKernel.Memory.FrameRuns
import ForsKernel.Memory.BootFrames
import ForsKernel.Memory.Paging
import ForsKernel.Memory.PagingTree
import ForsKernel.Memory.AddressSpace
import ForsKernel.Memory.UserTable
import ForsKernel.Memory.KernelImage
import ForsKernel.Memory.LargePages
import ForsKernel.Memory.SoftwareWalk
import ForsKernel.Memory.StaleRoot
import ForsKernel.Memory.Vmap
import ForsKernel.Memory.Executable
import ForsKernel.Memory.SharedMemory
import ForsKernel.Memory.SharedTables
import ForsKernel.Memory.SharedRuns
import ForsKernel.Heap.Buddy
import ForsKernel.Heap.FreeLists
import ForsKernel.Heap.Invariant
import ForsKernel.Heap.Capacity
import ForsKernel.Heap.Allocate
import ForsKernel.Heap.Release
import ForsKernel.Heap.Runs
import ForsKernel.Heap.RequestOrder
import ForsKernel.Heap.Placement
import ForsKernel.Heap.Undo
import ForsKernel.Heap.SplitMerge
import ForsKernel.Heap.Contents
import ForsKernel.Heap.Bytes
import ForsKernel.Heap.Conservation
import ForsKernel.Store.BufferCache
import ForsKernel.Store.StoreTypes
import ForsKernel.Store.Ata
import ForsKernel.Store.AtaPorts
import ForsKernel.Store.Disks
import ForsKernel.Store.AtaDrive
import ForsKernel.Store.AtaCalls
import ForsKernel.Store.AtaBoard
import ForsKernel.Store.AtaRuns
import ForsKernel.Store.CacheDevices
import ForsKernel.Store.DiskCache
import ForsKernel.Interrupts.Pic
import ForsKernel.Interrupts.Delivery
import ForsKernel.Interrupts.Gdt
import ForsKernel.Interrupts.Privilege
import ForsKernel.Store.CacheInvariant
import ForsKernel.Store.CacheRequests
import ForsKernel.Store.Checkout
import ForsKernel.Store.Capacity
import ForsKernel.Store.Coherence
import ForsKernel.Store.Residence
import ForsKernel.Store.WriteBack
import ForsKernel.Proc.Scheduler
import ForsKernel.Proc.RunQueue
import ForsKernel.Proc.Process
import ForsKernel.Proc.ContextSwitch
import ForsKernel.Proc.TimerRuns
import ForsKernel.Fs.Path
import ForsKernel.Fs.Prefixes
import ForsKernel.Fs.Vfs
import ForsKernel.Fs.PathWalk
import ForsKernel.Fs.OpenFiles
import ForsKernel.Fs.Permissions
import ForsKernel.Fs.Descriptors
import ForsKernel.Fs.Closing
import ForsKernel.Fs.Links
import ForsKernel.Fs.TestFs
import ForsKernel.Fs.ChildLists
import ForsKernel.Fs.Cursor
import ForsKernel.Fs.RefCounts
import ForsKernel.Fs.Balance
import ForsKernel.Fs.FindParent
import ForsKernel.Fs.LastName
import ForsKernel.Fs.Creation
import ForsKernel.Fs.InCore
import ForsKernel.Fs.Names
import ForsKernel.Fs.Resolution
import ForsKernel.Fs.NodeTable
import ForsKernel.Fs.Ext2
import ForsKernel.Fs.Ext2Source
import ForsKernel.Fs.Ext2Disk
import ForsKernel.Fs.Ext2Failures
import ForsKernel.Fs.Ext2Outcomes
import ForsKernel.Fs.Ext2Mount
import ForsKernel.Fs.Ext2Inodes
import ForsKernel.Fs.Slots
import ForsKernel.Fs.Identity
import ForsKernel.Forslib.Strings
import ForsKernel.Forslib.Compare
import ForsKernel.Forslib.Search
import ForsKernel.Forslib.Spans
import ForsKernel.Forslib.Copies
import ForsKernel.Forslib.Bounds
import ForsKernel.Forslib.Overlaps
import ForsKernel.Print.Conversion
import ForsKernel.Print.Grammar
import ForsKernel.Print.Printk
import ForsKernel.Print.Formats
import ForsKernel.Print.Decimal
import ForsKernel.Print.Hexadecimal
import ForsKernel.Syscall.Dispatch
import ForsKernel.Syscall.Refinement
import ForsKernel.Syscall.Isolation
import ForsKernel.Syscall.RoundRobin
import ForsKernel.Lib.ForwardCopy

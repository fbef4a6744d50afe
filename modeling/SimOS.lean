import SimOS.Library.Run
import SimOS.Library.PackedBits
import SimOS.Library.SlotCache
import SimOS.Library.CyclicSearch
import SimOS.Library.Pool
import SimOS.Library.Placement
import SimOS.Library.Fifo
import SimOS.Library.LinkedQueue
import SimOS.Library.WaitFor
import SimOS.Library.Custody
import SimOS.Library.Refinement
import SimOS.Library.BackedMemory
import SimOS.Mmu.Types
import SimOS.Mmu.Bitmaps
import SimOS.Mmu.PageTable
import SimOS.Mmu.Tlb
import SimOS.Mmu.Translate
import SimOS.Mmu.Runs
import SimOS.Mmu.Transparency
import SimOS.Mmu.EffectiveBits
import SimOS.Mmu.DirtyPages
import SimOS.Mmu.References
import SimOS.Mmu.PageTableRuns
import SimOS.Mmu.BitmapCoverage
import SimOS.Mmu.FrameAllocator
import SimOS.Mmu.FrameRuns
import SimOS.Mmu.BitmapRuns
import SimOS.Mmu.TlbRuns
import SimOS.Mmu.TlbMap
import SimOS.Mmu.FrameOwnership
import SimOS.Mmu.VirtualMemory
import SimOS.Mmu.TlbMisses
import SimOS.Mmu.WorkingSet
import SimOS.Mmu.ClockSweep
import SimOS.Kernel.Machine
import SimOS.Kernel.Census
import SimOS.Kernel.CpuTime
import SimOS.Kernel.RoundRobin
import SimOS.Kernel.RoundRobinSteps
import SimOS.Kernel.RoundRobinRuns
import SimOS.Kernel.RoundRobinTurns
import SimOS.Kernel.RoundRobinCpuTime
import SimOS.Kernel.LogReplay
import SimOS.Kernel.BoundedWaiting
import SimOS.Kernel.Semaphores
import SimOS.Kernel.Multilevel
import SimOS.Kernel.MultilevelSteps
import SimOS.Kernel.MultilevelRuns
import SimOS.Kernel.MultilevelTraps
import SimOS.Kernel.ScheduleSpec
import SimOS.Kernel.MultilevelCpuTime
import SimOS.Kernel.Dispatch
import SimOS.Kernel.MutualExclusion
import SimOS.Kernel.Verdict
import SimOS.Kernel.Agreement
import SimOS.Kernel.MultilevelTurns
import SimOS.Kernel.Priorities
import SimOS.Kernel.Starvation
import SimOS.Kernel.LevelWaiting
import SimOS.Kernel.TimeConservation
import SimOS.Kernel.Relabelling
import SimOS.Kernel.Symmetry
import SimOS.Kernel.Workload
import SimOS.Kernel.WorkloadRuns
import SimOS.Kernel.PidQueues
import SimOS.Kernel.PointerQueues
import SimOS.Kernel.PointerKernel
import SimOS.Kernel.PointerRefinement
import SimOS.Kernel.LevelQueues
import SimOS.Kernel.PointerMultilevel
import SimOS.Kernel.LevelRefinement
import SimOS.Kernel.LockOrder

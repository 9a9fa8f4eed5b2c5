import MmMem.Library.BoundedRun
import MmMem.Library.MachineInt
import MmMem.Library.PointerChain
import MmMem.MemRegion
import MmMem.RandomSequence
import MmMem.MemRegionLayout
import MmMem.MemRegionChain
import MmMem.MemRegionInit
import MmMem.MemRegionCycle
import MmMem.Library.FallibleScript
import MmMem.KernelSettings
import MmMem.KernelSettingsInvariant
import MmMem.KernelSettingsRestore
import MmMem.KernelSettingsRecovery
import MmMem.KernelSettingsEffects
import MmMem.KernelSettingsRetry
import MmMem.HugePages
import MmMem.Runner
import MmMem.RunnerPlan
import MmMem.RunnerInvariant
import MmMem.HugePageSizes
import MmMem.HugePageSetup
import MmMem.HugePageScript
import MmMem.RunnerRestore
import MmMem.RunnerAccepted
import MmMem.RunnerCleanup
import MmMem.RunnerCommands
import MmMem.RunnerSignals
import MmMem.RunnerOptOuts
import MmMem.RunnerSetups
import MmMem.RunnerOutcomes
import MmMem.CommandLine
import MmMem.CommandLineValues
import MmMem.CommandGrammar
import MmMem.CommandLineLanguage
import MmMem.NumaConfig
import MmMem.Configuration
import MmMem.MatrixTable
import MmMem.Library.WrappingTally
import MmMem.MeasureLoop
import MmMem.WorkerRoutines
import MmMem.WorkerLoops
import MmMem.LatencyDrivers
import MmMem.LatencyGeometry
import MmMem.LatencyPass
import MmMem.Footprint
import MmMem.BranchThroughput
import MmMem.LatencyFaults
import MmMem.LatencyPath
import MmMem.MemPolicy
import MmMem.MeasureLoopEnds
import MmMem.TimedLoops
import MmMem.JoinWatchdog
import MmMem.RequestedGeometry
import MmMem.StrideCycle
import MmMem.BandwidthKernels
import MmMem.KernelSweeps
import MmMem.BandwidthPasses
import MmMem.DelaySelection
import MmMem.DelayLabels
import MmMem.Library.Rounds
import MmMem.PeakRounds
import MmMem.LoadedRounds
import MmMem.CopyFragments
import MmMem.Library.BranchMachine
import MmMem.BranchChain
import MmMem.Library.RoundRobin
import MmMem.WorkerBinding
import MmMem.Library.SharedObject
import MmMem.SharedGenerator
import MmMem.SetupInterleavings
import MmMem.OptionIntegers
import MmMem.Library.LinkWalk
import MmMem.Library.PythonText
import MmMem.AncestorPids
import MmMem.ProcessSelection
import MmMem.Library.ChildProcesses
import MmMem.StatsCollection
import MmMem.StatsReports
import MmMem.StatsReaping
import MmMem.SequenceTermination
import MmMem.Library.Confinement
import MmMem.Library.ForkJoin
import MmMem.Library.ByteMemory
import MmMem.SharedMemory
import MmMem.SharedSetup
import MmMem.LatencyInterleavings
import MmMem.SetupStreams
import MmMem.RunnerTrace
import MmMem.RunnerRehearsal
import MmMem.PeakInterleavings
import MmMem.CopyInterleavings
import MmMem.BranchSweep
import MmMem.SuiteMeaning
import MmMem.HugePageBudget
import MmMem.CommandLineRoundTrip
import MmMem.ConfigurationRoundTrip
import MmMem.MatrixInterleavings
import MmMem.HugePageSessions

import MmMem.LatencyDrivers
import MmMem.Library.RoundRobin

namespace MmMem
open Prog
set_option autoImplicit true

/-- A worker as the constructor of `WorkerThreadManager` leaves it. -/
structure PinnedWorker where
  numThreads : UInt32
  threadId : UInt32
  /-- `none` is `kNotBound` -/
  boundCpu : Option Nat
  /-- the affinity of its attributes, if one is set -/
  cpuset : Option (List Nat)
  deriving Repr, DecidableEq

/-- `CPU_ZERO` and `CPU_SET`; a `cpu_set_t` has no place for cpus from 1024 on. -/
def cpuSet (j : Nat) : List Nat := if j < 1024 then [j] else []

/-- One trip of the loop of the constructor. -/
def pinWorker (numThreads : UInt32) (cpuCoreId : List Nat) (doBinding : Bool) (i : Nat) :
    Run Fault PinnedWorker :=
  if doBinding then do
    let idx := if numThreads = 1 then u32 (cpuCoreId.length / 4) else i
    let k ← remainder idx cpuCoreId.length
    let j ← vectorAt cpuCoreId k
    return { numThreads, threadId := .ofNat i, boundCpu := some j, cpuset := some (cpuSet j) }
  else return { numThreads, threadId := .ofNat i, boundCpu := none, cpuset := none }

/-- The constructor of `WorkerThreadManager`. -/
def newWorkerThreadManager (numThreads : UInt32) (cpuCoreId : List Nat) (doBinding : Bool) :
    Run Fault (List PinnedWorker) :=
  let doBinding := if doBinding ∧ cpuCoreId.length = 0 then false else doBinding
  Run.loop (fun i workers => do
    let w ← pinWorker numThreads cpuCoreId doBinding i
    return workers ++ [w]) numThreads.toNat 0 []

/-- What a driver hands to the constructor, and the node of the row it does so for. -/
structure ManagerArgs where
  row : Option Nat
  numThreads : UInt32
  cpuCoreId : List Nat
  doBinding : Bool
  deriving Repr, DecidableEq

def ManagerArgs.construct (args : ManagerArgs) : Run Fault (List PinnedWorker) :=
  newWorkerThreadManager args.numThreads args.cpuCoreId args.doBinding

/-- The managers of a matrix, one for each cell. -/
def matrixManagers (numa : NumaConfig) (minMem : Int) (config : Configuration) : List ManagerArgs :=
  (matrixRows numa minMem).flatMap fun (i, nodes) => nodes.map fun _ =>
    { row := some i
      numThreads := cellThreads numa config.numThreads i
      cpuCoreId := numa.nodeToAllowedCpus i
      doBinding := true }

/-- The manager of a driver that measures without a matrix. -/
def wholeManager (numa : NumaConfig) (config : Configuration) : ManagerArgs where
  row := none
  numThreads := config.numThreads
  cpuCoreId := numa.allAllowedCpus
  doBinding := !config.noBinding

/-- `setup_and_run` of `cpu_idle_latency` -/
def idleLatencyManagers (numa : NumaConfig) (config : Configuration) : List ManagerArgs :=
  if config.latencyMatrix then matrixManagers numa (1 <<< 30) config else [wholeManager numa config]

/-- `setup_and_run` of `cpu_peak_bandwidth` -/
def peakBandwidthManagers (numa : NumaConfig) (config : Configuration) : List ManagerArgs :=
  if config.bandwidthMatrix then matrixManagers numa (2 <<< 30) config else [wholeManager numa config]

/-- `main` of `cpu_loaded_latency` -/
def loadedLatencyManagers (numa : NumaConfig) (config : Configuration) : List ManagerArgs :=
  [wholeManager numa config]

/-- `main` of `cpu_memcpy` -/
def memcpyManagers (numa : NumaConfig) (config : Configuration) : List ManagerArgs :=
  [wholeManager numa config]

/-- `main` of `cpu_branch_throughput` -/
def branchThroughputManagers (numa : NumaConfig) (config : Configuration) : List ManagerArgs :=
  [wholeManager numa config]

/-- The managers that a program constructs, one after the other. -/
def managers (t : TestingType) (numa : NumaConfig) (config : Configuration) : List ManagerArgs :=
  match t with
  | .latency => idleLatencyManagers numa config
  | .bandwidth => peakBandwidthManagers numa config
  | .latencyBandwidth => loadedLatencyManagers numa config
  | .memcpy => memcpyManagers numa config
  | .branchThroughput => branchThroughputManagers numa config

/-- The workers of `idleManagers` are those that are pinned. -/
theorem idleManagers_threads (numa : NumaConfig) (config : Configuration) :
    (idleManagers numa config).map Prod.snd =
      (idleLatencyManagers numa config).map ManagerArgs.numThreads := by
  rw [idleManagers, idleLatencyManagers, matrixManagers]
  split
  · rw [List.map_flatMap, List.map_flatMap]
    simp only [List.map_map]
    rfl
  · rfl

/-- What the drivers ensure of the cpus they hand to a manager. -/
structure ManagerArgs.Usable (h : NumaMachine) (args : ManagerArgs) : Prop where
  nodup : args.cpuCoreId.Nodup
  allowed : ∀ cpu ∈ args.cpuCoreId, h.allowed cpu = true
  /-- the row of a node without usable cpus is skipped -/
  row : ∀ i, args.row = some i → args.cpuCoreId ≠ [] ∧
    ∀ cpu ∈ args.cpuCoreId, ∃ mask, h.nodeCpus i = some mask ∧ mask cpu = true

theorem NumaMachine.mem_cpusOfNode {h : NumaMachine} (hc : cpu ∈ h.cpusOfNode i) :
    ∃ mask, h.nodeCpus i = some mask ∧ mask cpu = true := by
  rw [NumaMachine.cpusOfNode] at hc
  split at hc
  · cases hc
  · next mask hmask => exact ⟨mask, hmask, (List.mem_filter.1 hc).2⟩

theorem NumaMachine.cpusOfNode_nodup (h : NumaMachine) (i : Nat) : (h.cpusOfNode i).Nodup := by
  rw [NumaMachine.cpusOfNode]
  split
  · exact List.nodup_nil
  · exact List.nodup_range.filter _

theorem wholeManager_usable (h : NumaMachine) (config : Configuration) :
    (wholeManager (.new h) config).Usable h where
  nodup := List.nodup_range.filter _
  allowed cpu hcpu := (List.mem_filter.1 hcpu).2
  row i hi := by cases hi

theorem matrixManagers_usable {h : NumaMachine}
    (hargs : args ∈ matrixManagers (.new h) minMem config) : args.Usable h := by
  obtain ⟨⟨i, nodes⟩, hrow, hargs⟩ := List.mem_flatMap.1 hargs
  obtain ⟨j, -, rfl⟩ := List.mem_map.1 hargs
  obtain ⟨i', hi', he⟩ := List.mem_map.1 hrow
  cases he
  refine ⟨(h.cpusOfNode_nodup i).filter _, fun cpu hcpu => (List.mem_filter.1 hcpu).2,
    fun i' hi => ?_⟩
  cases hi
  refine ⟨fun hnil => ?_, fun cpu hcpu => h.mem_cpusOfNode (List.mem_filter.1 hcpu).1⟩
  have hne := (List.mem_filter.1 hi').2
  rw [show NumaConfig.nodeToAllowedCpus (.new h) i = [] from hnil] at hne
  cases hne

theorem managers_usable {h : NumaMachine} (hargs : args ∈ managers t (.new h) config) :
    args.Usable h := by
  have hwhole : args ∈ [wholeManager (.new h) config] → args.Usable h := by
    intro hmem
    rw [List.mem_singleton.1 hmem]
    exact wholeManager_usable h config
  cases t with
  | latency =>
    rw [managers, idleLatencyManagers] at hargs
    split at hargs
    · exact matrixManagers_usable hargs
    · exact hwhole hargs
  | bandwidth =>
    rw [managers, peakBandwidthManagers] at hargs
    split at hargs
    · exact matrixManagers_usable hargs
    · exact hwhole hargs
  | latencyBandwidth => exact hwhole hargs
  | memcpy => exact hwhole hargs
  | branchThroughput => exact hwhole hargs

/-- The cpu of a worker that is bound. -/
def pinnedCpu (numThreads : UInt32) (cpuCoreId : List Nat) (i : Nat) : Option Nat :=
  cpuCoreId[(if numThreads = 1 then u32 (cpuCoreId.length / 4) else i) % cpuCoreId.length]?

/-- The cpu of a worker, if it is bound. -/
def ManagerArgs.assigned (args : ManagerArgs) (i : Nat) : Option Nat :=
  if args.doBinding ∧ args.cpuCoreId ≠ [] then pinnedCpu args.numThreads args.cpuCoreId i else none

/-- A worker on the cpu chosen for it, if one is. -/
def PinnedWorker.on (numThreads : UInt32) (i : Nat) (cpu : Option Nat) : PinnedWorker where
  numThreads
  threadId := .ofNat i
  boundCpu := cpu
  cpuset := cpu.map cpuSet

theorem pinWorker_bound {cpuCoreId : List Nat} (hne : cpuCoreId ≠ []) (numThreads : UInt32) (i : Nat) :
    pinWorker numThreads cpuCoreId true i =
      .done (.on numThreads i (pinnedCpu numThreads cpuCoreId i)) := by
  have hlength : cpuCoreId.length ≠ 0 := mt List.length_eq_zero_iff.1 hne
  have hlt := fun idx => Nat.mod_lt idx (Nat.pos_of_ne_zero hlength)
  rw [pinWorker, if_pos rfl]
  dsimp only
  rw [remainder_eq hlength, Run.done_bind, vectorAt_eq (hlt _), pinnedCpu,
    List.getElem?_eq_getElem (hlt _)]
  rfl

/-- No index is out of range, and nothing is divided by the length of an empty list. -/
theorem ManagerArgs.construct_eq (args : ManagerArgs) : args.construct =
    .done ((List.range args.numThreads.toNat).map fun i =>
      .on args.numThreads i (args.assigned i)) := by
  rw [ManagerArgs.construct, newWorkerThreadManager, List.range_eq_range',
    ← List.nil_append (List.map _ _)]
  apply Run.loop_append
  intro i workers
  by_cases hbind : args.doBinding ∧ args.cpuCoreId ≠ []
  · rw [ManagerArgs.assigned, if_pos hbind,
      if_neg (fun h => hbind.2 (List.length_eq_zero_iff.1 h.2)), hbind.1, pinWorker_bound hbind.2]
    rfl
  · have hoff : (if args.doBinding ∧ args.cpuCoreId.length = 0 then false else args.doBinding) =
        false := by
      cases hb : args.doBinding with
      | false => exact ite_self _
      | true =>
        have hnil : args.cpuCoreId = [] := not_not.1 fun hne => hbind ⟨hb, hne⟩
        exact if_pos ⟨rfl, List.length_eq_zero_iff.2 hnil⟩
    rw [ManagerArgs.assigned, if_neg hbind, hoff]
    rfl

theorem pinnedCpu_mem {cpuCoreId : List Nat} (hne : cpuCoreId ≠ []) (numThreads : UInt32) (i : Nat) :
    ∃ cpu ∈ cpuCoreId, pinnedCpu numThreads cpuCoreId i = some cpu := by
  have hlt := Nat.mod_lt (if numThreads = 1 then u32 (cpuCoreId.length / 4) else i)
    (List.length_pos_iff.2 hne)
  exact ⟨_, List.getElem_mem hlt, List.getElem?_eq_getElem hlt⟩

theorem ManagerArgs.assigned_mem {args : ManagerArgs} (h : args.assigned i = some cpu) :
    cpu ∈ args.cpuCoreId := by
  rw [ManagerArgs.assigned] at h
  split at h
  · next hbind =>
    obtain ⟨cpu', hmem, hcpu⟩ := pinnedCpu_mem hbind.2 args.numThreads i
    rw [h] at hcpu
    cases hcpu
    exact hmem
  · cases h

theorem PinnedWorker.on_affinity {numThreads : UInt32} {mask : List Nat}
    (h : (PinnedWorker.on numThreads i bound).cpuset = some mask) (hcpu : cpu ∈ mask) :
    bound = some cpu := by
  obtain ⟨j, rfl, rfl⟩ := Option.map_eq_some_iff.1 h
  rw [cpuSet] at hcpu
  split at hcpu
  · rw [List.mem_singleton.1 hcpu]
  · cases hcpu

/-- More than one worker, or none, go through the cpus in turn. -/
theorem pinnedCpus {numThreads : UInt32} (hmany : numThreads ≠ 1) (cpuCoreId : List Nat) :
    (List.range numThreads.toNat).map (pinnedCpu numThreads cpuCoreId) =
      roundRobin cpuCoreId numThreads.toNat := by
  apply List.map_congr_left
  intro i _
  rw [pinnedCpu, if_neg hmany]

variable {args : ManagerArgs}

theorem ManagerArgs.assigned_bound (h : args.doBinding ∧ args.cpuCoreId ≠ []) :
    args.assigned = pinnedCpu args.numThreads args.cpuCoreId := funext fun _ => if_pos h

theorem ManagerArgs.assigned_even (hnodup : args.cpuCoreId.Nodup) (ha : a ∈ args.cpuCoreId)
    (hb : b ∈ args.cpuCoreId) :
    ((List.range args.numThreads.toNat).map args.assigned).count (some a) ≤
      ((List.range args.numThreads.toNat).map args.assigned).count (some b) + 1 := by
  by_cases hbind : args.doBinding ∧ args.cpuCoreId ≠ []
  · rw [ManagerArgs.assigned_bound hbind]
    by_cases hone : args.numThreads = 1
    · rw [hone]
      exact Nat.le_trans List.count_le_length (Nat.le_add_left 1 _)
    · rw [pinnedCpus hone]
      exact roundRobin_balanced hnodup ha hb _
  · have hnone : some a ∉ (List.range args.numThreads.toNat).map args.assigned := by
      intro hmem
      obtain ⟨i, -, hi⟩ := List.mem_map.1 hmem
      rw [ManagerArgs.assigned, if_neg hbind] at hi
      cases hi
    rw [List.count_eq_zero_of_not_mem hnone]
    exact Nat.zero_le _

theorem ManagerArgs.assigned_distinct (hnodup : args.cpuCoreId.Nodup) (hbind : args.doBinding = true)
    (hn : args.numThreads.toNat ≤ args.cpuCoreId.length) :
    ((List.range args.numThreads.toNat).map args.assigned).Nodup := by
  by_cases hne : args.cpuCoreId ≠ []
  · rw [ManagerArgs.assigned_bound ⟨hbind, hne⟩]
    by_cases hone : args.numThreads = 1
    · rw [hone]
      exact List.nodup_singleton _
    · rw [pinnedCpus hone]
      exact roundRobin_nodup hnodup hn
  · rw [not_not.1 hne, List.length_nil, Nat.le_zero] at hn
    rw [hn]
    exact List.nodup_nil

/-- What the workers of a manager are pinned to. -/
structure PinnedEvenly (h : NumaMachine) (args : ManagerArgs) (workers : List PinnedWorker) :
    Prop where
  length : workers.length = args.numThreads.toNat
  /-- a worker that is bound is bound to a usable cpu, and its affinity has no other -/
  usable : ∀ w ∈ workers, ∀ cpu, w.boundCpu = some cpu → cpu ∈ args.cpuCoreId ∧
    h.allowed cpu = true ∧ ∀ i, args.row = some i → ∃ mask, h.nodeCpus i = some mask ∧ mask cpu = true
  affinity : ∀ w ∈ workers, ∀ mask, w.cpuset = some mask → ∀ cpu ∈ mask, w.boundCpu = some cpu
  bound : args.doBinding = true → args.cpuCoreId ≠ [] → ∀ w ∈ workers, w.boundCpu ≠ none
  unbound : args.cpuCoreId = [] → ∀ w ∈ workers, w.boundCpu = none ∧ w.cpuset = none
  even : ∀ a ∈ args.cpuCoreId, ∀ b ∈ args.cpuCoreId,
    (workers.map PinnedWorker.boundCpu).count (some a) ≤
      (workers.map PinnedWorker.boundCpu).count (some b) + 1
  distinct : args.doBinding = true → args.numThreads.toNat ≤ args.cpuCoreId.length →
    (workers.map PinnedWorker.boundCpu).Nodup

theorem ManagerArgs.Usable.pinned {h : NumaMachine} (hargs : args.Usable h) :
    ∃ workers, args.construct = .done workers ∧ PinnedEvenly h args workers := by
  have hcpus : ((List.range args.numThreads.toNat).map fun i =>
      PinnedWorker.on args.numThreads i (args.assigned i)).map PinnedWorker.boundCpu =
        (List.range args.numThreads.toNat).map args.assigned := List.map_map
  rw [args.construct_eq]
  refine ⟨_, rfl, ?_, fun w hw cpu hcpu => ?_, fun w hw mask hmask cpu hcpu => ?_,
    fun hbind hne w hw => ?_, fun hnil w hw => ?_, fun a ha b hb => ?_, fun hbind hn => ?_⟩
  · rw [List.length_map, List.length_range]
  · obtain ⟨i, -, rfl⟩ := List.mem_map.1 hw
    have hmem := ManagerArgs.assigned_mem hcpu
    exact ⟨hmem, hargs.allowed cpu hmem, fun node hnode => (hargs.row node hnode).2 cpu hmem⟩
  · obtain ⟨i, -, rfl⟩ := List.mem_map.1 hw
    exact PinnedWorker.on_affinity hmask hcpu
  · obtain ⟨i, -, rfl⟩ := List.mem_map.1 hw
    obtain ⟨cpu, -, hcpu⟩ := pinnedCpu_mem hne args.numThreads i
    change args.assigned i ≠ none
    rw [ManagerArgs.assigned_bound ⟨hbind, hne⟩, hcpu]
    exact nofun
  · obtain ⟨i, -, rfl⟩ := List.mem_map.1 hw
    rw [ManagerArgs.assigned, if_neg fun hbind => hbind.2 hnil]
    exact ⟨rfl, rfl⟩
  · rw [hcpus]
    exact ManagerArgs.assigned_even hargs.nodup ha hb
  · rw [hcpus]
    exact ManagerArgs.assigned_distinct hargs.nodup hbind hn

end MmMem

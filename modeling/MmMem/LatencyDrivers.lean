import MmMem.WorkerRoutines

namespace MmMem
open Prog
set_option autoImplicit true

/-- What a run takes from outside: the values of `rand()` and the clocks of each worker, what the
machine makes of a number that is converted to an integer type which cannot hold it, and how many
passes the loops may make. -/
structure Surroundings where
  rand : Nat → Nat → Nat
  /-- the reading of a worker's clock in a round, after some calls of its kernel -/
  clock : Nat → Nat → Nat → Int
  outOfRange : Float → UInt64
  outOfRangeFloat : Float32 → UInt64
  fuel : Nat

namespace Surroundings

/-- `static_cast<uint32_t>` of a `double` -/
def castUInt32 (env : Surroundings) (x : Float) : UInt32 :=
  if -1 < x ∧ x < 4294967296 then x.toUInt32 else (env.outOfRange x).toUInt32

/-- `static_cast<uint64_t>` of a `double` -/
def castUInt64 (env : Surroundings) (x : Float) : UInt64 :=
  if -1 < x ∧ x < 18446744073709551616 then x.toUInt64 else env.outOfRange x

/-- The conversion of a `float` that is assigned to a `uint64_t`. -/
def assignUInt64 (env : Surroundings) (x : Float32) : UInt64 :=
  if -1 < x ∧ x < 18446744073709551616 then x.toUInt64 else env.outOfRangeFloat x

end Surroundings

/-- An element of the packet vector, with the region the worker has allocated. -/
structure Worker where
  pkt : MemLatBwThreadPacket
  region : MemRegion
  memory : Memory
  finishedChases : Nat
  finishedBytes : Nat
  execTime : Float

def Worker.new (pkt : MemLatBwThreadPacket) (region : MemRegion) (memory : Memory) : Worker :=
  { pkt, region, memory, finishedChases := 0, finishedBytes := 0, execTime := 0 }

/-- The packets of the manager, as `prepare_mem_lat_bw_thread_packet` leaves them. -/
def preparePackets (config : Configuration) (node : Int32) (numThreads : UInt32) :
    List MemLatBwThreadPacket :=
  (List.range numThreads.toNat).map fun i =>
    prepareMemLatBwThreadPacket config node numThreads (.ofNat i)

def Worker.allocLat (env : Surroundings) (pkt : MemLatBwThreadPacket) : Run Fault Worker := do
  let (region, memory) ← memRegionAllocLat (env.rand pkt.threadId.toNat) env.fuel pkt
  return .new pkt region memory

def Worker.allocBw (pkt : MemLatBwThreadPacket) : Run Fault Worker := do
  let region ← memRegionAllocBw pkt
  return .new pkt region .zeroed

def Worker.latPtr (env : Surroundings) (round : Nat) (w : Worker) : Run Fault Worker := do
  let s ← MmMem.latPtr (kernelLat w.region w.memory) 0 (env.clock round w.pkt.threadId.toNat)
    env.fuel w.pkt w.region
  return { w with finishedChases := s.finished, execTime := s.timer.getElapsedTime }

/-- The 256 accesses of a bandwidth kernel, 32 bytes apart. -/
def kernelBw (r : MemRegion) (p : Nat) : Run Fault Nat :=
  Run.loop (fun _ p => do
    let _ ← r.loadWord p
    return u64 (p + 32)) 256 0 p

def getWriteFraction (readWriteMix : UInt32) : Float32 :=
  if readWriteMix = 1 then 1.0
  else if readWriteMix = 2 then 0.5
  else if readWriteMix = 3 then 0.3333
  else 0

/-- `finished_bytes += finished_bytes * write_fraction`: both bytes are converted to `float`, and
so is their sum until it is assigned. -/
def Surroundings.addWritten (env : Surroundings) (readWriteMix : UInt32) (finishedBytes : Nat) :
    Nat :=
  let bytes := (UInt64.ofNat finishedBytes).toFloat32
  (env.assignUInt64 (bytes + bytes * getWriteFraction readWriteMix)).toNat

/-- The exact sum is below 360439. -/
example (env : Surroundings) : env.addWritten 3 270336 = 360439 := by
  rw [Surroundings.addWritten, Surroundings.assignUInt64, if_pos (by decide +kernel)]
  decide +kernel

def Worker.bwSequential (env : Surroundings) (round : Nat) (w : Worker) : Run Fault Worker := do
  let s ← MmMem.bwSequential (kernelBw w.region) 0 (env.clock round w.pkt.threadId.toNat)
    env.fuel w.pkt w.region
  return { w with
    finishedBytes := env.addWritten w.pkt.readWriteMix s.finished
    execTime := s.timer.getElapsedTime }

/-- `getPacket(i)` for the first `n` workers. -/
def updatePackets (n : Nat) (f : Worker → Worker) (workers : List Worker) :
    Run Fault (List Worker) :=
  Run.loop (fun i workers => do
    let w ← vectorAt workers i
    vectorSet workers i (f w)) n 0 workers

/-- What a round adds up over its workers: `total_chases` or `total_bytes`, and
`total_exec_time`. -/
structure Totals where
  count : UInt64
  execTime : Float
  deriving Repr, DecidableEq

/-- The sums over the workers `first ≤ i < first + n`, of which `count` is one. -/
def sumPackets (count : Worker → Nat) (n first : Nat) (workers : List Worker) (total : Totals) :
    Run Fault Totals :=
  Run.loop (fun i total => do
    let w ← vectorAt workers i
    return { count := total.count + .ofNat (count w), execTime := total.execTime + w.execTime })
    n first total

/-- The latency of a chase, in nanoseconds. -/
def Totals.latency (total : Totals) : Float := total.execTime * 1e9 / total.count.toFloat

/-- The exact quotient is 477.125. -/
example : (Totals.latency ⟨2099200, elapsedSeconds 1001580800⟩ * 1e3).toUInt32 = 477124 := by
  decide +kernel

/-- The bandwidth of the workers together, in bytes a second. -/
def Totals.memBw (total : Totals) (numThreads : UInt32) : Float :=
  total.count.toFloat / total.execTime * numThreads.toFloat

def Totals.memBwGbps (total : Totals) (numThreads : UInt32) : Float :=
  total.memBw numThreads / 1024 / 1024 / 1024

/-- A round of `measure_idle_latency`: the workers after it and the latency it returns. -/
def measureIdleLatency (env : Surroundings) (config : Configuration) (numThreads : UInt32)
    (round : Nat) (lastMeasuredLatPs : UInt32) (workers : List Worker) :
    Run Fault (List Worker × UInt32) := do
  let workers ← updatePackets numThreads.toNat
    (fun w => { w with pkt := w.pkt.forIdleLatency config lastMeasuredLatPs }) workers
  let workers ← Run.all (workers.map (Worker.latPtr env round))
  let total ← sumPackets Worker.finishedChases numThreads.toNat 0 workers ⟨0, 0⟩
  return (workers, env.castUInt32 (total.latency * 1e3))

/-- What `setup_and_run` of `cpu_idle_latency` does with a manager of `numThreads` workers: the
setup on a node, a warm-up round and a round that is printed. -/
def idleLatency (env : Surroundings) (config : Configuration) (node : Int32)
    (numThreads : UInt32) : Run Fault UInt32 := do
  let workers ← Run.all ((preparePackets config node numThreads).map (Worker.allocLat env))
  let (workers, lastLatPs) ← measureIdleLatency env config numThreads 0 0 workers
  let (_, latPs) ← measureIdleLatency env config numThreads 1 lastLatPs workers
  return latPs

/-- The managers of `cpu_idle_latency`: the memory node and the number of workers of each. -/
def idleManagers (numa : NumaConfig) (config : Configuration) : List (Int32 × UInt32) :=
  if config.latencyMatrix then
    (matrixRows numa (1 <<< 30)).flatMap fun (i, nodes) =>
      nodes.map fun j => (.ofNat j, cellThreads numa config.numThreads i)
  else [(-1, config.numThreads)]

/-- The managers one after the other, the `k`-th in surroundings of its own. -/
def runManagers (env : Nat → Surroundings) (config : Configuration) :
    Nat → List (Int32 × UInt32) → Run Fault Unit
  | _, [] => .done ()
  | k, (node, numThreads) :: managers => do
    let _ ← idleLatency (env k) config node numThreads
    runManagers env config (k + 1) managers

/-- `setup_memory_regions_loaded_latency`: the first worker chases, the others generate load. -/
def Worker.allocLoaded (env : Surroundings) (pkt : MemLatBwThreadPacket) : Run Fault Worker :=
  if pkt.threadId = 0 then Worker.allocLat env pkt else Worker.allocBw pkt

def Worker.measureLoaded (env : Surroundings) (round : Nat) (w : Worker) : Run Fault Worker :=
  if w.pkt.threadId = 0 then w.latPtr env round else w.bwSequential env round

/-- A round of `measure_loaded_latency`: the workers, the latency and the bandwidth after it. -/
def measureLoadedLatency (env : Surroundings) (numa : NumaConfig) (config : Configuration)
    (round : Nat) (lastMeasuredLatPs lastMeasuredBwGbps : UInt32) (workers : List Worker) :
    Run Fault (List Worker × UInt32 × UInt32) := do
  let n := config.numThreads.toNat
  let workers ← updatePackets n (fun w => { w with
    pkt := w.pkt.forLoadedLatency config (.ofNat numa.numCpus) lastMeasuredLatPs
      lastMeasuredBwGbps }) workers
  let workers ← Run.all (workers.map (Worker.measureLoaded env round))
  let first ← vectorAt workers 0
  let latencyChases : UInt64 := .ofNat first.finishedChases
  let total ← sumPackets Worker.finishedBytes (n - 1) 1 workers
    ⟨latencyChases * config.strideSizeB.toUInt64, first.execTime⟩
  let latency := Totals.latency ⟨latencyChases, first.execTime⟩
  return (workers, env.castUInt32 (latency * 1e3),
    env.castUInt32 (total.memBwGbps config.numThreads))

/-- The rounds of `main`, one for each of the delays that are left. -/
def loadedRounds (env : Surroundings) (numa : NumaConfig) (config : Configuration) :
    List Int32 → Nat → UInt32 → UInt32 → List Worker → Run Fault Unit
  | [], _, _, _, _ => .done ()
  | _ :: delays, round, lastLatPs, lastBwGbps, workers => do
    let (workers, latPs, bwGbps) ←
      measureLoadedLatency env numa config round lastLatPs lastBwGbps workers
    loadedRounds env numa config delays (round + 1) latPs bwGbps workers

/-- `main` of `cpu_loaded_latency` after its options are parsed, for the delays it measures. -/
def loadedLatency (env : Surroundings) (numa : NumaConfig) (config : Configuration)
    (delays : List Int32) : Run Fault Unit := do
  let workers ← Run.all
    ((preparePackets config (-1) config.numThreads).map (Worker.allocLoaded env))
  loadedRounds env numa config delays 0 0 0 workers

end MmMem

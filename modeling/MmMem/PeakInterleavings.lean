import MmMem.LatencyInterleavings
import MmMem.PeakRounds

namespace MmMem
open Prog
set_option autoImplicit true

/-- What a round of `measure_peak_bandwidth` comes to. -/
structure PeakTotals where
  readWriteMix : UInt32
  total : Totals
  deriving Repr, DecidableEq

/-- The kernels of `run`, the first of them twice. -/
def peakItems (readWriteMix : UInt32) : List (UInt32 × Code) :=
  let items := rwmixAndKernels readWriteMix
  items.take 1 ++ items

namespace Manager

/-- A round of `measure_peak_bandwidth` with workers that stream through their regions. -/
def measurePeakBandwidth (env : Surroundings) (config : Configuration) (numCpus numThreads : UInt32)
    (round : Nat) (readWriteMix lastMeasuredBwGbps : UInt32) (workers : List Worker) :
    Run Fault (List Worker × PeakTotals) := do
  let workers ← updatePackets numThreads.toNat (fun w => { w with
    pkt := w.pkt.forPeakBandwidth config numCpus readWriteMix lastMeasuredBwGbps }) workers
  let workers ← Run.all (workers.map (Worker.bwSequential env round))
  let total ← sumPackets Worker.finishedBytes numThreads.toNat 0 workers ⟨0, 0⟩
  return (workers, { readWriteMix, total })

/-- The rounds of `run`, one for each of the kernels that are left. -/
def runPeakBandwidth (env : Surroundings) (config : Configuration) (numCpus numThreads : UInt32) :
    List UInt32 → Nat → UInt32 → List Worker → Run Fault (List PeakTotals)
  | [], _, _, _ => .done []
  | mix :: mixes, round, lastBwGbps, workers => do
    let (workers, totals) ←
      measurePeakBandwidth env config numCpus numThreads round mix lastBwGbps workers
    let later ← runPeakBandwidth env config numCpus numThreads mixes (round + 1)
      (env.castUInt32 (totals.total.memBwGbps numThreads)) workers
    return totals :: later

/-- `setup_and_run` of `cpu_peak_bandwidth` with one manager. -/
def peakBandwidth (env : Surroundings) (config : Configuration) (node : Int32)
    (numCpus numThreads : UInt32) : Run Fault (List PeakTotals) := do
  let workers ← Run.all ((preparePackets config node numThreads).map Worker.allocBw)
  runPeakBandwidth env config numCpus numThreads ((peakItems config.readWriteMix).map Prod.fst) 0 0
    workers

end Manager

namespace Joining

def measurePeakBandwidth (env : Surroundings) (config : Configuration) (base : Nat → Nat)
    (numCpus numThreads : UInt32) (kernelBw : Code) (round : Nat)
    (readWriteMix lastMeasuredBwGbps : UInt32) (workers : List Worker) :
    Joining (List Worker × PeakTotals) := do
  let workers ← updatePackets numThreads.toNat (fun w => { w with
    pkt := w.pkt.forPeakBandwidth config numCpus readWriteMix lastMeasuredBwGbps }) workers
  let workers ← runWorkers base (Accessing.bwSequential env kernelBw round) workers
  let total ← sumPackets Worker.finishedBytes numThreads.toNat 0 workers ⟨0, 0⟩
  return (workers, { readWriteMix, total })

def runPeakBandwidth (env : Surroundings) (config : Configuration) (base : Nat → Nat)
    (numCpus numThreads : UInt32) :
    List (UInt32 × Code) → Nat → UInt32 → List Worker → Joining (List PeakTotals)
  | [], _, _, _ => pure []
  | (mix, kernelBw) :: items, round, lastBwGbps, workers => do
    let (workers, totals) ← measurePeakBandwidth env config base numCpus numThreads kernelBw round
      mix lastBwGbps workers
    let later ← runPeakBandwidth env config base numCpus numThreads items (round + 1)
      (env.castUInt32 (totals.total.memBwGbps numThreads)) workers
    return totals :: later

def peakBandwidth (env : Surroundings) (config : Configuration) (node : Int32)
    (base : Nat → Nat) (numCpus numThreads : UInt32) : Joining (List PeakTotals) := do
  let workers ← runWorkers base Accessing.allocBw (preparePackets config node numThreads)
  runPeakBandwidth env config base numCpus numThreads (peakItems config.readWriteMix) 0 0 workers

variable {config : Configuration} {workers : List Worker} {b : Bytes}

theorem measurePeakBandwidth_refines {numThreads : UInt32} {P : Placement numThreads.toNat size}
    (h : AllPlaced P (fun _ => False) workers b) {kernelBw : Code} (hkernel : Sweeps 256 kernelBw)
    (env : Surroundings) (config : Configuration) (numCpus : UInt32) (round : Nat)
    (mix lastBwGbps : UInt32) :
    (measurePeakBandwidth env config P.base numCpus numThreads kernelBw round mix lastBwGbps
      workers).Refines P.territory.division
      (fun x b' y => x = y ∧ AllPlaced P (fun _ => False) x.1 b') b
      (Manager.measurePeakBandwidth env config numCpus numThreads round mix lastBwGbps workers) := by
  have hready := AllPlaced.map h (f := fun w => { w with
    pkt := w.pkt.forPeakBandwidth config numCpus mix lastBwGbps }) fun w => ⟨rfl, rfl, id⟩
  rw [measurePeakBandwidth, Manager.measurePeakBandwidth, updatePackets_eq _ _ h.1, Run.done_bind]
  refine (runWorkers_refines (fun _ => False) hready.1 ?_).bind ?_
  · intro i w hw hi
    have hplaced := hready.2 i w hw
    apply (Accessing.bwSequential_refines (hplaced.owned (P.owned hi)) hkernel env round).mono
    rintro w' b' w'' ⟨rfl, hlike⟩
    exact ⟨rfl, hplaced.setUpLike hlike nofun⟩
  · rintro ws b' _ ⟨rfl, hplaced⟩
    exact .lift_bind fun total _ => .done ⟨rfl, hplaced⟩

theorem runPeakBandwidth_refines {numThreads : UInt32} {P : Placement numThreads.toNat size}
    (h : AllPlaced P (fun _ => False) workers b) {items : List (UInt32 × Code)}
    (hitems : ∀ item ∈ items, Sweeps 256 item.2) (env : Surroundings) (config : Configuration)
    (numCpus : UInt32) (round : Nat) (lastBwGbps : UInt32) :
    (runPeakBandwidth env config P.base numCpus numThreads items round lastBwGbps workers).Refines
      P.territory.division (fun x _ y => x = y) b
      (Manager.runPeakBandwidth env config numCpus numThreads (items.map Prod.fst) round lastBwGbps
        workers) := by
  induction items generalizing round lastBwGbps workers b with
  | nil => exact .done rfl
  | cons item items ih =>
    obtain ⟨hitem, hitems⟩ := List.forall_mem_cons.1 hitems
    rw [runPeakBandwidth, List.map_cons, Manager.runPeakBandwidth]
    apply (measurePeakBandwidth_refines h hitem env config numCpus round item.1 lastBwGbps).bind
    rintro ⟨ws, totals⟩ b' _ ⟨rfl, hplaced⟩
    apply (ih hplaced hitems (round + 1) _).bind
    rintro later b'' _ rfl
    exact .done rfl

theorem peakBandwidth_refines {numThreads : UInt32} (env : Surroundings) (config : Configuration)
    (node : Int32) (numCpus : UInt32) (P : Placement numThreads.toNat config.regionBytes)
    (b : Bytes) :
    (peakBandwidth env config node P.base numCpus numThreads).Refines P.territory.division
      (fun x _ y => x = y) b (Manager.peakBandwidth env config node numCpus numThreads) := by
  rw [peakBandwidth, Manager.peakBandwidth]
  refine (runWorkers_refines (fun _ => False) (preparePackets_length ..) ?_).bind ?_
  · intro i pkt hpkt hi
    exact Accessing.allocBw_refines (preparePackets_size hpkt) (P.owned hi) False
  · rintro workers b' _ ⟨rfl, hplaced⟩
    apply runPeakBandwidth_refines hplaced
    intro item hitem
    rcases List.mem_append.1 hitem with hitem | hitem
    · exact rwmixAndKernels_sweep (List.mem_of_mem_take hitem)
    · exact rwmixAndKernels_sweep hitem

end Joining

/-- What the workers of `cpu_peak_bandwidth` keep. -/
structure Worker.Streaming (w : Worker) : Prop where
  threads : 0 < w.pkt.numThreads.toNat
  streamed : w.region.Streamed

theorem Worker.Streaming.bwSequential {w : Worker} (h : w.Streaming) (env : Surroundings)
    (round : Nat) : Run.Safe Worker.Streaming (w.bwSequential env round) := by
  apply (bwSequential_safe h.streamed h.threads _ _).bind
  intro s _
  exact .done ⟨h.threads, h.streamed⟩

namespace Manager

variable {config : Configuration} {workers : List Worker}

theorem measurePeakBandwidth_safe (env : Surroundings) (config : Configuration)
    (numCpus numThreads : UInt32) (round : Nat) (mix lastBwGbps : UInt32)
    (hlen : workers.length = numThreads.toNat) (h : ∀ w ∈ workers, w.Streaming) :
    Run.Safe (fun x => x.1.length = numThreads.toNat ∧ ∀ w ∈ x.1, w.Streaming)
      (measurePeakBandwidth env config numCpus numThreads round mix lastBwGbps workers) := by
  rw [measurePeakBandwidth, updatePackets_eq _ _ hlen, Run.done_bind]
  apply (Run.Safe.all (P := Worker.Streaming) _).bind
  · rintro workers' ⟨hlen', hall⟩
    rw [List.length_map, List.length_map, hlen] at hlen'
    apply (sumPackets_safe _ _ (by omega) _).bind
    intro total _
    exact .done ⟨hlen', hall⟩
  · intro x hx
    obtain ⟨w, hw, rfl⟩ := List.mem_map.1 hx
    obtain ⟨w', hw', rfl⟩ := List.mem_map.1 hw
    have hready : Worker.Streaming { w' with
      pkt := w'.pkt.forPeakBandwidth config numCpus mix lastBwGbps } :=
      ⟨(h w' hw').threads, (h w' hw').streamed⟩
    exact hready.bwSequential env round

theorem runPeakBandwidth_safe (env : Surroundings) (config : Configuration)
    (numCpus numThreads : UInt32) (mixes : List UInt32) (round : Nat) (lastBwGbps : UInt32)
    (hlen : workers.length = numThreads.toNat) (h : ∀ w ∈ workers, w.Streaming) :
    Run.Safe (fun _ => True)
      (runPeakBandwidth env config numCpus numThreads mixes round lastBwGbps workers) := by
  induction mixes generalizing round lastBwGbps workers with
  | nil => exact .done trivial
  | cons mix mixes ih =>
    apply (measurePeakBandwidth_safe env config numCpus numThreads round mix lastBwGbps hlen h).bind
    rintro ⟨workers', totals⟩ ⟨hlen', hall⟩
    apply (ih (round + 1) _ hlen' hall).bind
    intro later _
    exact .done trivial

theorem peakBandwidth_safe (halloc : config.Allocated) (env : Surroundings) (node : Int32)
    (numCpus numThreads : UInt32) :
    Run.Safe (fun _ => True) (peakBandwidth env config node numCpus numThreads) := by
  apply (Run.Safe.all (P := Worker.Streaming) _).bind
  · rintro workers ⟨hlen, hall⟩
    rw [List.length_map, preparePackets_length] at hlen
    exact runPeakBandwidth_safe env config numCpus numThreads _ 0 0 hlen hall
  · intro x hx
    obtain ⟨pkt, hpkt, rfl⟩ := List.mem_map.1 hx
    obtain ⟨i, hi, rfl⟩ := List.mem_map.1 hpkt
    have hthreads : 0 < numThreads.toNat := by
      have hlt := List.mem_range.1 hi
      omega
    rw [Worker.allocBw, memRegionAllocBw, MemRegion.new_eq, if_neg (by decide), Run.done_bind]
    exact .done ⟨hthreads, rfl, halloc⟩

end Manager

/-- A worker whose region holds a call of the bandwidth kernels. -/
structure Worker.Sweeping (w : Worker) : Prop where
  streaming : w.Streaming
  covered : 256 * 32 ≤ w.region.activeSize

theorem Worker.Sweeping.bwSequential_returns {w : Worker} (h : w.Sweeping)
    {config : Configuration} (hpkt : w.pkt.Within config) {env : Surroundings}
    (henv : env.Timely config) (round : Nat) :
    Run.Returns Worker.Sweeping fun fuel => w.bwSequential { env with fuel } round := by
  apply (MmMem.bwSequential_returns h.streaming.streamed h.covered h.streaming.threads
    (henv.clock hpkt _ _)).bind
  intro s _
  refine .done (a := { w with
    finishedBytes := env.addWritten w.pkt.readWriteMix s.finished
    execTime := s.timer.getElapsedTime }) (fun _ => rfl) ?_
  exact ⟨⟨h.streaming.threads, h.streaming.streamed⟩, h.covered⟩

namespace Manager

variable {config : Configuration} {env : Surroundings} {workers : List Worker}

theorem measurePeakBandwidth_returns (henv : env.Timely config) (numCpus numThreads : UInt32)
    (round : Nat) (mix lastBwGbps : UInt32) (hlen : workers.length = numThreads.toNat)
    (h : ∀ w ∈ workers, w.Sweeping) :
    Run.Returns (fun x => x.2.readWriteMix = mix ∧ x.1.length = numThreads.toNat ∧
        ∀ w ∈ x.1, w.Sweeping)
      fun fuel => measurePeakBandwidth { env with fuel } config numCpus numThreads round mix
        lastBwGbps workers := by
  apply (updatePackets_returns _ hlen).bind
  rintro _ rfl
  refine (Run.Returns.all (P := Worker.Sweeping) ?_).bind ?_
  · intro w hw
    obtain ⟨w, hmem, rfl⟩ := List.mem_map.1 hw
    have hstreaming := (h w hmem).streaming
    have hready : Worker.Sweeping { w with
      pkt := w.pkt.forPeakBandwidth config numCpus mix lastBwGbps } :=
      ⟨⟨hstreaming.threads, hstreaming.streamed⟩, (h w hmem).covered⟩
    exact hready.bwSequential_returns (targetDuration_le _ _) henv round
  · rintro workers' ⟨hlen', hall⟩
    rw [List.length_map, hlen] at hlen'
    apply (sumPackets_returns _ _ (by omega) _).bind
    intro total _
    exact .done (a := (workers', ⟨mix, total⟩)) (fun _ => rfl) ⟨rfl, hlen', hall⟩

theorem runPeakBandwidth_returns (henv : env.Timely config) (numCpus numThreads : UInt32)
    (mixes : List UInt32) (round : Nat) (lastBwGbps : UInt32)
    (hlen : workers.length = numThreads.toNat) (h : ∀ w ∈ workers, w.Sweeping) :
    Run.Returns (fun rounds => rounds.map PeakTotals.readWriteMix = mixes)
      fun fuel => runPeakBandwidth { env with fuel } config numCpus numThreads mixes round
        lastBwGbps workers := by
  induction mixes generalizing round lastBwGbps workers with
  | nil => exact .done (fun _ => rfl) rfl
  | cons mix mixes ih =>
    apply (measurePeakBandwidth_returns henv numCpus numThreads round mix lastBwGbps hlen h).bind
    rintro ⟨workers', totals⟩ ⟨hmix, hlen', hall⟩
    apply (ih (round + 1) (env.castUInt32 (totals.total.memBwGbps numThreads)) hlen' hall).bind
    intro later hlater
    refine .done (fun _ => rfl) ?_
    rw [List.map_cons, hlater]
    exact congrArg (· :: mixes) hmix

theorem peakBandwidth_returns (halloc : config.Allocated) (hs : config.Streams)
    (henv : env.Timely config) (node : Int32) (numCpus numThreads : UInt32) :
    Run.Returns (fun rounds => rounds.map PeakTotals.readWriteMix =
        (peakItems config.readWriteMix).map Prod.fst)
      fun fuel => peakBandwidth { env with fuel } config node numCpus numThreads := by
  have hset : Run.Returns (fun workers : List Worker => workers.length = numThreads.toNat ∧
      ∀ w ∈ workers, w.Sweeping)
      fun _ => Run.all ((preparePackets config node numThreads).map Worker.allocBw) := by
    rw [← preparePackets_length config node numThreads]
    apply Run.Returns.all (P := Worker.Sweeping) (f := fun _ => Worker.allocBw)
    intro pkt hpkt
    obtain ⟨i, hi, rfl⟩ := List.mem_map.1 hpkt
    have hthreads : 0 < numThreads.toNat := by
      have hlt := List.mem_range.1 hi
      omega
    simp only [Worker.allocBw, memRegionAllocBw, MemRegion.new_eq,
      if_neg (show ¬ (4096 = 0 ∨ 64 = 0) by decide), Run.done_bind]
    exact .done (fun _ => rfl) ⟨⟨hthreads, rfl, halloc⟩, hs⟩
  apply hset.bind
  rintro workers ⟨hlen, hall⟩
  exact runPeakBandwidth_returns henv numCpus numThreads _ 0 0 hlen hall

end Manager

end MmMem

import MmMem.LatencyPath
import MmMem.LoopReturns

namespace MmMem
open Prog
set_option autoImplicit true

/-- The clock of every worker keeps time for as long as a round may last. -/
def Surroundings.Timely (env : Surroundings) (config : Configuration) : Prop :=
  ∀ round threadId, MmMem.Timely (env.clock round threadId)
    (max 1 config.targetDurationS.toNat * 1000000000 : Nat)

/-- Surroundings whose shuffles all return and whose clocks show a second a call. -/
def steadySurroundings : Surroundings := { quietSurroundings with clock _ _ n := 1000000000 * n }

theorem steadySurroundings_timely (config : Configuration) : steadySurroundings.Timely config := by
  intro round threadId
  have hlt : config.targetDurationS.toNat < 2 ^ 32 := UInt32.toNat_lt _
  refine ⟨fun m n hle => ?_, max 1 config.targetDurationS.toNat, by omega, ?_⟩
  · change 1000000000 * (m : Int) ≤ 1000000000 * (n : Int)
    omega
  · change _ ≤ 1000000000 * ((max 1 config.targetDurationS.toNat : Nat) : Int) - 1000000000 * (0 : Nat)
    omega

/-- A region holds a call of the chase, and no shuffle is longer than its counter. -/
structure Configuration.Measurable (config : Configuration) : Prop where
  chases : 256 * config.strideSizeB.toNat ≤ config.regionBytes
  lines : config.accessPattern = 2 → (config.latRegion 0).numActiveLines ≤ 2 ^ 32

/-- A region holds a call of the bandwidth kernels. -/
def Configuration.Streams (config : Configuration) : Prop := 256 * 32 ≤ config.regionBytes

instance (config : Configuration) : Decidable config.Streams := inferInstanceAs (Decidable (_ ≤ _))

/-- The packet asks for the duration of the options, or for the second of a warm-up. -/
def MemLatBwThreadPacket.Within (pkt : MemLatBwThreadPacket) (config : Configuration) : Prop :=
  pkt.targetDuration.toNat ≤ max 1 config.targetDurationS.toNat

variable {config : Configuration} {env : Surroundings} {pkt : MemLatBwThreadPacket} {w : Worker}

theorem targetDuration_le (p : Prop) [Decidable p] (t : UInt32) :
    (if p then t else 1).toNat ≤ max 1 t.toNat := by
  split
  · exact Nat.le_max_right 1 _
  · exact Nat.le_max_left 1 _

theorem MemLatBwThreadPacket.forLoadedLatency_within (pkt : MemLatBwThreadPacket)
    (config : Configuration) (numCpus lastLatPs lastBwGbps : UInt32) :
    (pkt.forLoadedLatency config numCpus lastLatPs lastBwGbps).Within config := by
  rw [Within, forLoadedLatency]
  dsimp only
  split
  · exact targetDuration_le _ _
  · exact targetDuration_le _ _

theorem Surroundings.Timely.clock (h : env.Timely config) (hpkt : pkt.Within config)
    (round threadId : Nat) : MmMem.Timely (env.clock round threadId) pkt.targetDurationNs := by
  apply (h round threadId).of_le
  have hle : pkt.targetDuration.toNat ≤ max 1 config.targetDurationS.toNat := hpkt
  rw [MemLatBwThreadPacket.targetDurationNs]
  omega

theorem Configuration.Measurable.reached (h : config.Measurable) (halloc : config.Allocated)
    (hchunk : config.chunkBytes ≠ 0) (hstride : config.strideSizeB ≠ 0) (memType : Int) :
    (config.latRegion memType).Reached config.accessPattern where
  lines := h.lines
  linesInPage := by
    have hplain := Configuration.latRegion_plain halloc hchunk hstride memType
    have hchunklt : config.chunkBytes < 2 ^ 32 := UInt32.toNat_lt _
    have hpage : (config.latRegion memType).pageSize ≤ 2 ^ 32 := by
      change (if config.chunkBytes > config.regionBytes then 4096 else config.chunkBytes) ≤ 2 ^ 32
      split
      · decide
      · exact Nat.le_of_lt hchunklt
    rw [hplain.wellFormed.lines]
    exact (Nat.div_le_self _ _).trans hpage

/-- A chasing worker whose region holds a call of the kernel. -/
structure Worker.Chasing (w : Worker) : Prop where
  chased : w.Chased
  covered : 256 * w.region.lineSize ≤ w.region.activeSize

theorem Configuration.LatencySafe.allocLat_returns (h : config.LatencySafe)
    (halloc : config.Allocated) (hm : config.Measurable) (env : Surroundings) (node : Int32)
    (numThreads threadId : UInt32) :
    Run.Returns (fun w => w.Chasing ∧
        w.pkt = prepareMemLatBwThreadPacket config node numThreads threadId)
      fun fuel => Worker.allocLat { env with fuel }
        (prepareMemLatBwThreadPacket config node numThreads threadId) := by
  obtain ⟨hchunk, hstride, hchase⟩ := h
  have hpos : config.strideSizeB.toNat ≠ 0 := fun h0 => hstride (UInt32.toNat_inj.1 h0)
  have hplain := Configuration.latRegion_plain halloc hchunk hstride (memTypeNode0 + node).toInt
  simp only [Worker.allocLat, memRegionAllocLat_eq, if_neg (not_or.2 ⟨hchunk, hpos⟩),
    Run.bind_assoc]
  apply (hplain.initByPattern_returns hchase (hm.reached halloc hchunk hstride _) _).bind
  intro m hm'
  exact .done (fun _ => rfl) ⟨⟨hm', hm.chases⟩, rfl⟩

theorem Worker.Chasing.latPtr_returns (h : w.Chasing) (hpkt : w.pkt.Within config)
    (henv : env.Timely config) (round : Nat) :
    Run.Returns (fun w' => w'.Chasing ∧ w'.pkt = w.pkt)
      fun fuel => w.latPtr { env with fuel } round := by
  apply (MmMem.latPtr_returns h.chased h.covered (henv.clock hpkt _ _)).bind
  intro s _
  exact .done (fun _ => rfl) ⟨⟨h.chased, h.covered⟩, rfl⟩

theorem kernelBw_ne_running (r : MemRegion) (p : Nat) : kernelBw r p ≠ .running := by
  apply Run.loop_ne_running
  intro _ p
  exact Run.bind_ne_running (r.loadWord_ne_running p) fun _ _ => Run.done_ne_running

theorem bwSequential_returns {r : MemRegion} (hr : r.Streamed) (hcall : 256 * 32 ≤ r.activeSize)
    (hthreads : 0 < pkt.numThreads.toNat) (hclock : Timely clock pkt.targetDurationNs) :
    Run.Returns (fun _ => True) fun fuel => bwSequential (kernelBw r) 0 clock fuel pkt r := by
  obtain ⟨l, hl, hsized, htarget, hcount⟩ := bwLoop_spec r hthreads
  have hsafe := bwSequential_safe hr hthreads clock
  simp only [bwSequential, hl, Run.done_bind] at hsafe ⊢
  have hcalls : 0 < l.loopCount := by
    rw [hcount]
    exact Nat.div_pos hcall (by decide)
  exact hsized.run_returns (fun _ => kernelBw_ne_running r) hcalls (htarget ▸ hclock) 0 hsafe

/-- The regions of `cpu_loaded_latency` hold a call of the kernel that runs on them. -/
structure Worker.Working (w : Worker) : Prop where
  loaded : w.Loaded
  chaser : w.pkt.threadId = 0 → 256 * w.region.lineSize ≤ w.region.activeSize
  loader : w.pkt.threadId ≠ 0 → 256 * 32 ≤ w.region.activeSize

theorem Worker.Working.chasing (h : w.Working) (h0 : w.pkt.threadId = 0) : w.Chasing :=
  ⟨h.loaded.chaser h0, h.chaser h0⟩

theorem Worker.Chasing.working (h : w.Chasing) (hthreads : 0 < w.pkt.numThreads.toNat)
    (h0 : w.pkt.threadId = 0) : w.Working :=
  ⟨⟨hthreads, fun _ => h.chased, fun hne => absurd h0 hne⟩, fun _ => h.covered,
    fun hne => absurd h0 hne⟩

theorem Configuration.LatencySafe.allocLoaded_returns (h : config.LatencySafe)
    (halloc : config.Allocated) (hm : config.Measurable) (hs : config.Streams)
    {numThreads : UInt32} (hn : numThreads ≠ 0) (env : Surroundings) (node : Int32)
    (threadId : UInt32) :
    Run.Returns Worker.Working fun fuel => Worker.allocLoaded { env with fuel }
      (prepareMemLatBwThreadPacket config node numThreads threadId) := by
  have hthreads : 0 < numThreads.toNat :=
    Nat.pos_of_ne_zero fun h0 => hn (UInt32.toNat_inj.1 h0)
  by_cases h0 : threadId = 0
  · have hfirst : (prepareMemLatBwThreadPacket config node numThreads threadId).threadId = 0 := h0
    simp only [Worker.allocLoaded, if_pos hfirst]
    apply (h.allocLat_returns halloc hm env node numThreads threadId).mono
    rintro w ⟨hw, hpkt⟩
    exact hw.working (hpkt ▸ hthreads) (hpkt ▸ h0)
  · have hlater : (prepareMemLatBwThreadPacket config node numThreads threadId).threadId ≠ 0 := h0
    simp only [Worker.allocLoaded, if_neg hlater, Worker.allocBw, memRegionAllocBw,
      MemRegion.new_eq, if_neg (show ¬ (4096 = 0 ∨ 64 = 0) by decide), Run.done_bind]
    exact .done (fun _ => rfl) ⟨⟨hthreads, fun hz => absurd hz h0, fun _ => ⟨rfl, halloc⟩⟩,
      fun hz => absurd hz h0, fun _ => hs⟩

theorem Worker.Working.measureLoaded_returns (h : w.Working) (hpkt : w.pkt.Within config)
    (henv : env.Timely config) (round : Nat) :
    Run.Returns Worker.Working fun fuel => w.measureLoaded { env with fuel } round := by
  by_cases h0 : w.pkt.threadId = 0
  · simp only [Worker.measureLoaded, if_pos h0]
    apply ((h.chasing h0).latPtr_returns hpkt henv round).mono
    rintro w' ⟨hw', hsame⟩
    exact hw'.working (hsame ▸ h.loaded.threads) (hsame ▸ h0)
  · simp only [Worker.measureLoaded, if_neg h0]
    apply (MmMem.bwSequential_returns (h.loaded.loader h0) (h.loader h0) h.loaded.threads
      (henv.clock hpkt _ _)).bind
    intro s _
    refine .done (a := { w with
      finishedBytes := env.addWritten w.pkt.readWriteMix s.finished
      execTime := s.timer.getElapsedTime }) (fun _ => rfl) ?_
    exact ⟨⟨h.loaded.threads, h.loaded.chaser, h.loaded.loader⟩, h.chaser, h.loader⟩

theorem sumPackets_returns (count : Worker → Nat) (workers : List Worker)
    (h : first + n ≤ workers.length) (total : Totals) :
    Run.Returns (fun _ => True) fun _ => sumPackets count n first workers total := by
  apply Run.Returns.of_safe (sumPackets_safe count workers h total)
  apply Run.loop_ne_running
  intro i total
  exact Run.bind_ne_running vectorAt_ne_running fun _ _ => Run.done_ne_running

theorem updatePackets_returns (f : Worker → Worker) {workers : List Worker}
    (h : workers.length = n) :
    Run.Returns (· = workers.map f) fun _ => updatePackets n f workers :=
  .done (fun _ => updatePackets_eq f workers h) rfl

variable {workers : List Worker}

theorem measureIdleLatency_returns (henv : env.Timely config) (round : Nat) (last : UInt32)
    {numThreads : UInt32} (hlen : workers.length = numThreads.toNat)
    (h : ∀ w ∈ workers, w.Chasing) :
    Run.Returns (fun p => p.1.length = numThreads.toNat ∧ ∀ w ∈ p.1, w.Chasing)
      fun fuel => measureIdleLatency { env with fuel } config numThreads round last workers := by
  apply (updatePackets_returns _ hlen).bind
  rintro _ rfl
  refine (Run.Returns.all (P := Worker.Chasing) ?_).bind ?_
  · intro w hw
    obtain ⟨w, hmem, rfl⟩ := List.mem_map.1 hw
    have hready : Worker.Chasing { w with pkt := w.pkt.forIdleLatency config last } :=
      ⟨(h w hmem).chased, (h w hmem).covered⟩
    exact (hready.latPtr_returns (targetDuration_le _ _) henv round).mono fun _ hw' => hw'.1
  · rintro workers' ⟨hlen', hall⟩
    rw [List.length_map, hlen] at hlen'
    apply (sumPackets_returns _ _ (by omega) _).bind
    intro total _
    exact .done (a := (workers', env.castUInt32 (total.latency * 1e3))) (fun _ => rfl) ⟨hlen', hall⟩

theorem idleLatency_returns (hsafe : config.LatencySafe) (halloc : config.Allocated)
    (hm : config.Measurable) (henv : env.Timely config) (node : Int32) (numThreads : UInt32) :
    Run.Returns (fun _ => True)
      fun fuel => idleLatency { env with fuel } config node numThreads := by
  refine (Run.Returns.all (P := Worker.Chasing) ?_).bind ?_
  · intro pkt hpkt
    obtain ⟨threadId, rfl⟩ := mem_preparePackets hpkt
    exact (hsafe.allocLat_returns halloc hm env node numThreads threadId).mono fun _ hw => hw.1
  · rintro workers ⟨hlen, hall⟩
    rw [preparePackets_length] at hlen
    apply (measureIdleLatency_returns henv 0 0 hlen hall).bind
    rintro ⟨workers, last⟩ ⟨hlen, hall⟩
    apply (measureIdleLatency_returns henv 1 last hlen hall).bind
    rintro ⟨_, latPs⟩ -
    exact .done (fun _ => rfl) trivial

theorem measureLoadedLatency_returns (hn : config.numThreads ≠ 0) (henv : env.Timely config)
    (numa : NumaConfig) (round : Nat) (lastLatPs lastBwGbps : UInt32)
    (hlen : workers.length = config.numThreads.toNat) (h : ∀ w ∈ workers, w.Working) :
    Run.Returns (fun p => p.1.length = config.numThreads.toNat ∧ ∀ w ∈ p.1, w.Working)
      fun fuel => measureLoadedLatency { env with fuel } numa config round lastLatPs lastBwGbps
        workers := by
  have hthreads : 0 < config.numThreads.toNat :=
    Nat.pos_of_ne_zero fun h0 => hn (UInt32.toNat_inj.1 h0)
  simp only [measureLoadedLatency]
  apply (updatePackets_returns _ hlen).bind
  rintro _ rfl
  refine (Run.Returns.all (P := Worker.Working) ?_).bind ?_
  · intro w hw
    obtain ⟨w, hmem, rfl⟩ := List.mem_map.1 hw
    have hloaded := (h w hmem).loaded
    have hready : Worker.Working { w with
      pkt := w.pkt.forLoadedLatency config (.ofNat numa.numCpus) lastLatPs lastBwGbps } :=
      ⟨⟨hloaded.threads, hloaded.chaser, hloaded.loader⟩, (h w hmem).chaser, (h w hmem).loader⟩
    exact hready.measureLoaded_returns (w.pkt.forLoadedLatency_within ..) henv round
  · rintro workers' ⟨hlen', hall⟩
    rw [List.length_map, hlen] at hlen'
    simp only [vectorAt_eq (show 0 < workers'.length by omega), Run.done_bind]
    apply (sumPackets_returns _ _ (by omega) _).bind
    intro total _
    refine .done (a := (workers', env.castUInt32 _, env.castUInt32 _)) (fun _ => rfl) ?_
    exact ⟨hlen', hall⟩

end MmMem

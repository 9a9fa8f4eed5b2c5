import MmMem.LatencyFaults

namespace MmMem
open Prog
set_option autoImplicit true

variable {config : Configuration} {node : Int32} {numThreads threadId : UInt32}

theorem idleLatency_no_workers (env : Surroundings) (config : Configuration) (node : Int32) :
    ∃ ps, idleLatency env config node 0 = .done ps := ⟨_, rfl⟩

theorem runManagers_safe (halloc : config.Allocated) (hsafe : config.LatencySafe)
    (env : Nat → Surroundings) (k : Nat) (managers : List (Int32 × UInt32)) :
    runManagers env config k managers ≠ .fault e := by
  induction managers generalizing k with
  | nil => exact nofun
  | cons p managers ih =>
    intro he
    rcases Run.bind_eq_fault.1 he with hfirst | ⟨ps, -, hrest⟩
    · exact (idleLatency_faults_iff halloc p.1 p.2).2 (.inr hsafe) (env k) e hfirst
    · exact ih (k + 1) hrest

/-- The managers of a run never fault exactly if none has a worker or the workers are safe. -/
theorem runManagers_faults_iff (halloc : config.Allocated) (k : Nat)
    (managers : List (Int32 × UInt32)) :
    (∀ env e, runManagers env config k managers ≠ .fault e) ↔
      (∀ p ∈ managers, p.2 = 0) ∨ config.LatencySafe := by
  by_cases hsafe : config.LatencySafe
  · exact ⟨fun _ => .inr hsafe, fun _ env e => runManagers_safe halloc hsafe env k managers⟩
  · rw [or_iff_left hsafe]
    induction managers generalizing k with
    | nil => exact ⟨fun _ p hp => absurd hp List.not_mem_nil, fun _ _ _ => nofun⟩
    | cons p managers ih =>
      obtain ⟨node, numThreads⟩ := p
      rw [List.forall_mem_cons, ← ih (k + 1)]
      constructor
      · intro h
        have hn : numThreads = 0 := by
          by_contra hn
          have hfree : ∀ e, idleLatency quietSurroundings config node numThreads ≠ .fault e :=
            fun e he => h (fun _ => quietSurroundings) e (Run.bind_eq_fault.2 (.inl he))
          exact hsafe (latencySafe_of_idle halloc hn hfree)
        subst hn
        refine ⟨rfl, fun env e he => ?_⟩
        obtain ⟨ps, hps⟩ := idleLatency_no_workers (env k) config node
        exact h env e (Run.bind_eq_fault.2 (.inr ⟨ps, hps, he⟩))
      · rintro ⟨hn, hrest⟩ env e he
        change numThreads = 0 at hn
        subst hn
        obtain ⟨ps, hps⟩ := idleLatency_no_workers (env k) config node
        change idleLatency (env k) config node 0 >>= _ = _ at he
        rw [hps] at he
        exact hrest env e he

/-- A region that a load worker streams through. -/
def MemRegion.Streamed (r : MemRegion) : Prop := r.size = r.activeSize ∧ r.size < 2 ^ 63

theorem kernelBw_eq {r : MemRegion} (hr : r.Streamed) (h : p + 8192 ≤ r.size) :
    kernelBw r p = .done (p + 8192) := by
  have hsize := hr.2
  have hstream : ∀ n ≤ 256, Run.loop (fun _ p => do
      let _ ← r.loadWord p
      return u64 (p + 32)) n 0 p = .done (p + 32 * n) := by
    intro n hn
    induction n with
    | zero => rfl
    | succ n ih =>
      rw [Run.loop_succ, ih (by omega), Run.done_bind, MemRegion.loadWord, if_pos (by omega),
        Run.done_bind, u64_eq (by omega)]
      rfl
  rw [kernelBw, hstream 256 (Nat.le_refl _)]

theorem bwSequential_safe {r : MemRegion} {pkt : MemLatBwThreadPacket} (hr : r.Streamed)
    (hthreads : 0 < pkt.numThreads.toNat) (clock : Nat → Int) (fuel : Nat) :
    Run.Safe (fun _ => True) (bwSequential (kernelBw r) 0 clock fuel pkt r) := by
  obtain ⟨l, hl, -, -, hcount⟩ := bwLoop_spec r hthreads
  rw [bwSequential, hl, Run.done_bind]
  apply MeasureLoop.run_safe (I := fun i p => p = i * 8192) fun _ => rfl
  rintro i hi _ rfl
  have hle : l.loopCount * 8192 ≤ r.size := by
    rw [hcount, hr.1]
    exact Nat.div_mul_le_self _ _
  have hnext : (i + 1) * 8192 ≤ l.loopCount * 8192 := Nat.mul_le_mul_right _ hi
  rw [Nat.succ_mul] at hnext
  have hfits : i * 8192 + 8192 ≤ r.size := Nat.le_trans hnext hle
  rw [kernelBw_eq hr hfits]
  exact .done (Nat.succ_mul _ _).symm

/-- What the workers of `cpu_loaded_latency` keep. -/
structure Worker.Loaded (w : Worker) : Prop where
  threads : 0 < w.pkt.numThreads.toNat
  chaser : w.pkt.threadId = 0 → w.Chased
  loader : w.pkt.threadId ≠ 0 → w.region.Streamed

theorem Configuration.LatencySafe.allocLoaded (h : config.LatencySafe) (halloc : config.Allocated)
    (hn : numThreads ≠ 0) (env : Surroundings) (node : Int32) (threadId : UInt32) :
    Run.Safe Worker.Loaded
      (Worker.allocLoaded env (prepareMemLatBwThreadPacket config node numThreads threadId)) := by
  have hthreads : 0 < numThreads.toNat :=
    Nat.pos_of_ne_zero fun h0 => hn (UInt32.toNat_inj.1 h0)
  rw [Worker.allocLoaded]
  split
  · next h0 =>
    cases hw : Worker.allocLat env
        (prepareMemLatBwThreadPacket config node numThreads threadId) with
    | done w =>
      have hchased := (h.allocLat halloc env node numThreads threadId).of_done hw
      have hpkt := Worker.allocLat_pkt hw
      refine .done ⟨?_, fun _ => hchased.1, fun hne => ?_⟩
      · rw [hpkt]
        exact hthreads
      · rw [hpkt] at hne
        exact absurd h0 hne
    | fault e => exact absurd hw (h.allocLat halloc env node numThreads threadId).not_fault
    | running => exact .running
  · next hne =>
    rw [Worker.allocBw, memRegionAllocBw, MemRegion.new_eq, if_neg (by decide), Run.done_bind]
    exact .done ⟨hthreads, fun h0 => absurd h0 hne, fun _ => ⟨rfl, halloc⟩⟩

theorem Worker.measureLoaded_first {w : Worker} (h : w.pkt.threadId = 0) (env : Surroundings)
    (round : Nat) : w.measureLoaded env round = w.latPtr env round := if_pos h

theorem Worker.Loaded.measureLoaded {w : Worker} (h : w.Loaded) (env : Surroundings)
    (round : Nat) : Run.Safe Worker.Loaded (w.measureLoaded env round) := by
  rw [Worker.measureLoaded]
  split
  · next h0 =>
    apply ((h.chaser h0).latPtr env round).mono
    rintro w' ⟨hchased, hpkt⟩
    rw [← hpkt] at h0
    exact ⟨hpkt ▸ h.threads, fun _ => hchased, fun hne => absurd h0 hne⟩
  · next hne =>
    apply (bwSequential_safe (h.loader hne) h.threads _ _).bind
    intro s _
    exact .done ⟨h.threads, fun h0 => absurd h0 hne, fun _ => h.loader hne⟩

theorem measureLoadedLatency_safe (hn : config.numThreads ≠ 0) (env : Surroundings)
    (numa : NumaConfig) (round : Nat) (lastLatPs lastBwGbps : UInt32) {workers : List Worker}
    (hlen : workers.length = config.numThreads.toNat) (h : ∀ w ∈ workers, w.Loaded) :
    Run.Safe (fun p => p.1.length = config.numThreads.toNat ∧ ∀ w ∈ p.1, w.Loaded)
      (measureLoadedLatency env numa config round lastLatPs lastBwGbps workers) := by
  have hthreads : 0 < config.numThreads.toNat :=
    Nat.pos_of_ne_zero fun h0 => hn (UInt32.toNat_inj.1 h0)
  simp only [measureLoadedLatency]
  rw [updatePackets_eq _ _ hlen, Run.done_bind]
  apply (Run.Safe.all (P := Worker.Loaded) _).bind
  · rintro workers' ⟨hlen', hall⟩
    rw [List.length_map, List.length_map, hlen] at hlen'
    rw [vectorAt_eq (by omega), Run.done_bind]
    apply (sumPackets_safe _ _ (by omega) _).bind
    intro total _
    exact .done ⟨hlen', hall⟩
  · intro x hx
    obtain ⟨w, hw, rfl⟩ := List.mem_map.1 hx
    obtain ⟨w', hw', rfl⟩ := List.mem_map.1 hw
    have hloaded := h w' hw'
    have hready : Worker.Loaded { w' with
      pkt := w'.pkt.forLoadedLatency config (.ofNat numa.numCpus) lastLatPs lastBwGbps } :=
      ⟨hloaded.threads, hloaded.chaser, hloaded.loader⟩
    exact hready.measureLoaded env round

theorem loadedRounds_safe (hn : config.numThreads ≠ 0) (env : Surroundings) (numa : NumaConfig)
    (delays : List Int32) (round : Nat) (lastLatPs lastBwGbps : UInt32) {workers : List Worker}
    (hlen : workers.length = config.numThreads.toNat) (h : ∀ w ∈ workers, w.Loaded) :
    Run.Safe (fun _ => True)
      (loadedRounds env numa config delays round lastLatPs lastBwGbps workers) := by
  induction delays generalizing round lastLatPs lastBwGbps workers with
  | nil => exact .done trivial
  | cons delay delays ih =>
    apply (measureLoadedLatency_safe hn env numa round lastLatPs lastBwGbps hlen h).bind
    rintro ⟨workers', latPs, bwGbps⟩ ⟨hlen', hall⟩
    exact ih (round + 1) latPs bwGbps hlen' hall

theorem loadedLatency_safe (h : config.LatencySafe) (halloc : config.Allocated)
    (hn : config.numThreads ≠ 0) (env : Surroundings) (numa : NumaConfig) (delays : List Int32) :
    Run.Safe (fun _ => True) (loadedLatency env numa config delays) := by
  apply (Run.Safe.all (P := Worker.Loaded) _).bind
  · rintro workers ⟨hlen, hall⟩
    rw [List.length_map, preparePackets_length] at hlen
    exact loadedRounds_safe hn env numa delays 0 0 0 hlen hall
  · intro x hx
    obtain ⟨pkt, hpkt, rfl⟩ := List.mem_map.1 hx
    obtain ⟨threadId, rfl⟩ := mem_preparePackets hpkt
    exact h.allocLoaded halloc hn env (-1) threadId

/-- Without workers the packet of the first one is read all the same. -/
theorem loadedLatency_no_workers (hn : config.numThreads = 0) (env : Surroundings)
    (numa : NumaConfig) (delay : Int32) (delays : List Int32) :
    loadedLatency env numa config (delay :: delays) = .fault (.indexOutOfBounds 0) := by
  simp only [loadedLatency, loadedRounds, measureLoadedLatency, hn]
  rfl

theorem latencySafe_of_loaded (halloc : config.Allocated) (hn : config.numThreads ≠ 0)
    {numa : NumaConfig} {delay : Int32} {delays : List Int32}
    (h : ∀ e, loadedLatency quietSurroundings numa config (delay :: delays) ≠ .fault e) :
    config.LatencySafe := by
  have hquiet : ∀ threadId, Worker.allocLoaded quietSurroundings
      (prepareMemLatBwThreadPacket config (-1) config.numThreads threadId) ≠ .running := by
    intro threadId
    rw [Worker.allocLoaded]
    split
    · exact allocLat_quiet halloc (-1) config.numThreads threadId
    · rw [Worker.allocBw, memRegionAllocBw, MemRegion.new_eq, if_neg (by decide)]
      exact nofun
  obtain ⟨workers, hw, hlen⟩ := all_set_up hquiet fun e he => h e (by rw [loadedLatency, he]; rfl)
  obtain ⟨rest, hcons⟩ := preparePackets_cons config (-1) hn
  have hfirst := hw
  rw [hcons, List.map_cons] at hfirst
  obtain ⟨w, ws, rfl, hset, -⟩ := Run.all_done_cons hfirst
  replace hset : Worker.allocLat quietSurroundings
      (prepareMemLatBwThreadPacket config (-1) config.numThreads 0) = .done w := hset
  have hzero : w.pkt.threadId = 0 := by
    rw [Worker.allocLat_pkt hset]
    rfl
  apply latencySafe_of_all halloc hset (w.pkt.forLoadedLatency config (.ofNat numa.numCpus) 0 0)
    ((ws.map fun w => { w with
      pkt := w.pkt.forLoadedLatency config (.ofNat numa.numCpus) 0 0 }).map
        (Worker.measureLoaded quietSurroundings 0))
  intro e he
  apply h e
  rw [loadedLatency, hw, Run.done_bind]
  apply Run.bind_eq_fault.2
  left
  simp only [measureLoadedLatency]
  rw [updatePackets_eq _ _ hlen, Run.done_bind, List.map_cons, List.map_cons]
  apply Run.bind_eq_fault.2
  left
  have hchaser : Worker.measureLoaded quietSurroundings 0 { w with
      pkt := w.pkt.forLoadedLatency config (.ofNat numa.numCpus) 0 0 } =
        Worker.latPtr quietSurroundings 0 { w with
          pkt := w.pkt.forLoadedLatency config (.ofNat numa.numCpus) 0 0 } := by
    apply Worker.measureLoaded_first
    exact hzero
  rw [hchaser]
  exact he

theorem loadedLatency_faults_iff (halloc : config.Allocated) (numa : NumaConfig) :
    (∀ env delays e, delays ≠ [] → loadedLatency env numa config delays ≠ .fault e) ↔
      config.numThreads ≠ 0 ∧ config.LatencySafe := by
  constructor
  · intro h
    have hn : config.numThreads ≠ 0 := fun hn =>
      h quietSurroundings [0] _ (List.cons_ne_nil _ _)
        (loadedLatency_no_workers hn quietSurroundings numa 0 [])
    exact ⟨hn, latencySafe_of_loaded halloc hn fun e =>
      h quietSurroundings [0] e (List.cons_ne_nil _ _)⟩
  · rintro ⟨hn, hsafe⟩ env delays e -
    exact (loadedLatency_safe hsafe halloc hn env numa delays).not_fault

/-- Under options the programs accept, and with the regions allocated, the latency path is free of
faults exactly if no manager has a worker or the regions are safe to initialise and chase; the
loaded latency also needs a worker to read the packet of. -/
theorem latency_path_faults (numa : NumaConfig) (argv : List Text) (config : Configuration)
    (halloc : config.Allocated) :
    (Configuration.parseOptions .latency numa argv = .done (.ok config) →
      ((∀ env e, runManagers env config 0 (idleManagers numa config) ≠ .fault e) ↔
        (∀ p ∈ idleManagers numa config, p.2 = 0) ∨ config.LatencySafe)) ∧
    (Configuration.parseOptions .latencyBandwidth numa argv = .done (.ok config) →
      ((∀ env delays e, delays ≠ [] → loadedLatency env numa config delays ≠ .fault e) ↔
        config.numThreads ≠ 0 ∧ config.LatencySafe)) :=
  ⟨fun _ => runManagers_faults_iff halloc 0 _, fun _ => loadedLatency_faults_iff halloc numa⟩

/-- A region of 64 KiB in pages of 4 KiB. -/
theorem latency_path_faults_small :
    let numa := NumaConfig.new ⟨0, 1, 1, fun _ => true, fun _ => 2 ^ 34, fun _ => some fun _ => true⟩
    let config := { Configuration.byDefault .latency numa with regionSizeKb := 64, chunkSizeKb := 4 }
    ∀ env e, runManagers env config 0 (idleManagers numa config) ≠ .fault e := by
  intro numa config
  have hparse : Configuration.parseOptions .latency numa
      ["cpu_idle_latency".toList, "-b64".toList, "-c4".toList] = .done (.ok config) := by
    decide +kernel
  have halloc : config.Allocated := by decide +kernel
  have hsafe : config.LatencySafe := by decide +kernel
  exact ((latency_path_faults numa _ config halloc).1 hparse).2 (.inr hsafe)

/-- Chunks of no size are accepted, and divided by. -/
theorem latency_path_divides_by_zero :
    let numa := NumaConfig.new ⟨0, 1, 1, fun _ => true, fun _ => 2 ^ 34, fun _ => some fun _ => true⟩
    let config := { Configuration.byDefault .latency numa with chunkSizeKb := 0 }
    Configuration.parseOptions .latency numa ["cpu_idle_latency".toList, "-c0".toList] =
        .done (.ok config) ∧
      config.Allocated ∧
      ∀ env, runManagers env config 0 (idleManagers numa config) = .fault .divideByZero := by
  intro numa config
  have hparse : Configuration.parseOptions .latency numa
      ["cpu_idle_latency".toList, "-c0".toList] = .done (.ok config) := by
    decide +kernel
  have hmanagers : idleManagers numa config = [(-1, 1)] := by decide +kernel
  have hpackets : preparePackets config (-1) 1 =
      [prepareMemLatBwThreadPacket config (-1) 1 0] := rfl
  have hchunk : config.chunkBytes = 0 := by decide +kernel
  refine ⟨hparse, by decide +kernel, fun env => ?_⟩
  have hworker : Worker.allocLat (env 0) (prepareMemLatBwThreadPacket config (-1) 1 0) =
      .fault .divideByZero := by
    rw [Worker.allocLat, memRegionAllocLat_eq, if_pos (.inl hchunk)]
    rfl
  rw [hmanagers, runManagers, idleLatency, hpackets, List.map_cons, Run.all, hworker]
  rfl

end MmMem

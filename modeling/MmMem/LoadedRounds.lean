import MmMem.PeakRounds

namespace MmMem
open Prog
set_option autoImplicit true

/-- What the workers of a round come to. -/
structure LoadedMeasurement where
  latencyNs : ℚ
  memBw : ℚ
  deriving Repr, DecidableEq

structure LoadedRow where
  delay : UInt32
  bandwidthGbps : ℚ
  latencyNs : ℚ
  deriving Repr, DecidableEq

/-- A round: what the workers run and are handed, and the row that is printed after it. -/
structure LoadedRound where
  kernelBw : Code
  packets : List MemLatBwThreadPacket
  shown : Option LoadedRow
  deriving DecidableEq

/-- `getPacket` -/
def getPacket (packets : List MemLatBwThreadPacket) (i : Nat) : Run RoundFault MemLatBwThreadPacket :=
  match packets[i]? with
  | some pkt => .done pkt
  | none => .fault (.noPacket i)

/-- A round of `measure_loaded_latency` that comes to `measured`; the manager has a packet for each
of `config.num_threads`. -/
def measureLoadedRound (config : Configuration) (numCpus : UInt32) (measured : LoadedMeasurement)
    (packets : List MemLatBwThreadPacket) (kernelBw : Code)
    (lastMeasuredLatPs lastMeasuredBwGbps delay : UInt32) :
    Run RoundFault (LoadedRound × UInt32 × UInt32) := do
  let packets := packets.map fun pkt =>
    pkt.forLoadedLatency config numCpus lastMeasuredLatPs lastMeasuredBwGbps
  let _ ← getPacket packets 0
  let memBwGbps := memBwGbps measured.memBw
  let shown := if lastMeasuredLatPs > 0 ∨ lastMeasuredBwGbps > 0 then
    some { delay, bandwidthGbps := memBwGbps, latencyNs := measured.latencyNs } else none
  let lastLatPs ← castUInt32 (measured.latencyNs * 1000)
  let lastBwGbps ← castUInt32 memBwGbps
  return ({ kernelBw, packets, shown }, lastLatPs, lastBwGbps)

/-- What one trip of the loop of `main` leaves to the next. -/
structure LoadedState where
  packets : List MemLatBwThreadPacket
  lastLatPs : UInt32
  lastBwGbps : UInt32

def loadedStep (config : Configuration) (numCpus : UInt32) (measured : Nat → LoadedMeasurement)
    (k : Nat) (s : LoadedState) (item : Int32 × Code) :
    Run RoundFault (LoadedRound × LoadedState) := do
  let (round, lastLatPs, lastBwGbps) ← measureLoadedRound config numCpus (measured k) s.packets
    item.2 s.lastLatPs s.lastBwGbps item.1.toUInt32
  return (round, { packets := round.packets, lastLatPs, lastBwGbps })

/-- The loop of `main` over its delays and kernels, for what its rounds come to. -/
def runLoadedLatency (config : Configuration) (numCpus : UInt32)
    (measured : Nat → LoadedMeasurement) (delaysAndKernels : List (Int32 × Code)) :
    Run RoundFault (List LoadedRound) :=
  rounds (loadedStep config numCpus measured) 0
    { packets := preparePackets config (-1) config.numThreads, lastLatPs := 0, lastBwGbps := 0 }
    delaysAndKernels

/-- In every round that prints a row, each worker measures for as long as asked. -/
def LoadedThroughout (config : Configuration) (results : List LoadedRound) : Prop :=
  ∀ round ∈ results, round.shown.isSome = true → ∀ i < config.numThreads.toNat,
    ∃ pkt, round.packets[i]? = some pkt ∧ pkt.targetDuration = config.targetDurationS

/-- Both numbers that a round hands back fit. -/
def LoadedMeasurement.Fits (m : LoadedMeasurement) : Prop :=
  m.latencyNs * 1000 < 2 ^ 32 ∧ memBwGbps m.memBw < 2 ^ 32

/-- The next round is not printed, is as long as a warm-up, or follows numbers that are both
positive after they are rounded down; a single worker generates no load. -/
def LoadedMeasurement.KeepsDuration (m : LoadedMeasurement) (config : Configuration) : Prop :=
  (m.latencyNs * 1000 < 1 ∧ memBwGbps m.memBw < 1) ∨ config.targetDurationS = 1 ∨
    (1 ≤ m.latencyNs * 1000 ∧ (1 ≤ memBwGbps m.memBw ∨ config.numThreads = 1))

variable {config : Configuration} {numCpus : UInt32} {measured : Nat → LoadedMeasurement}

theorem loadedStep_eq_done {s s' : LoadedState} {item : Int32 × Code} {round : LoadedRound} :
    loadedStep config numCpus measured k s item = .done (round, s') ↔
      s.packets ≠ [] ∧ castUInt32 ((measured k).latencyNs * 1000) = .done s'.lastLatPs ∧
        castUInt32 (memBwGbps (measured k).memBw) = .done s'.lastBwGbps ∧
        s'.packets = s.packets.map (fun pkt =>
          pkt.forLoadedLatency config numCpus s.lastLatPs s.lastBwGbps) ∧
        round = ⟨item.2, s'.packets, if s.lastLatPs > 0 ∨ s.lastBwGbps > 0 then
          some ⟨item.1.toUInt32, memBwGbps (measured k).memBw, (measured k).latencyNs⟩ else none⟩ := by
  obtain ⟨packets, lastLatPs, lastBwGbps⟩ := s'
  rw [loadedStep, measureLoadedRound]
  constructor
  · intro h
    obtain ⟨_, hround, h⟩ := Run.bind_eq_done.1 h
    obtain ⟨first, hfirst, hround⟩ := Run.bind_eq_done.1 hround
    obtain ⟨lat, hlat, hround⟩ := Run.bind_eq_done.1 hround
    obtain ⟨bw, hbw, hround⟩ := Run.bind_eq_done.1 hround
    cases hround
    cases h
    refine ⟨?_, hlat, hbw, rfl, rfl⟩
    intro hnil
    rw [hnil] at hfirst
    cases hfirst
  · rintro ⟨hne, hlat, hbw, rfl, rfl⟩
    obtain ⟨first, later, hs⟩ := List.exists_cons_of_ne_nil hne
    rw [hs, List.map_cons, getPacket, List.getElem?_cons_zero]
    dsimp only at hlat hbw ⊢
    rw [hlat, hbw]
    rfl

/-- What holds of the packets in every round: worker `i` has the `i`-th. -/
def Numbered (numThreads : UInt32) (packets : List MemLatBwThreadPacket) : Prop :=
  packets.map MemLatBwThreadPacket.threadId = (List.range numThreads.toNat).map UInt32.ofNat

theorem preparePackets_numbered (config : Configuration) (node : Int32) (numThreads : UInt32) :
    Numbered numThreads (preparePackets config node numThreads) := by
  rw [Numbered, preparePackets, List.map_map]
  rfl

theorem Numbered.forLoadedLatency {numThreads : UInt32} (h : Numbered numThreads packets)
    (config : Configuration) (numCpus lat bw : UInt32) :
    Numbered numThreads (packets.map fun pkt => pkt.forLoadedLatency config numCpus lat bw) := by
  rw [Numbered, List.map_map]
  exact h

theorem Numbered.length {numThreads : UInt32} (h : Numbered numThreads packets) :
    packets.length = numThreads.toNat := by
  have hlength := congrArg List.length h
  rwa [List.length_map, List.length_map, List.length_range] at hlength

theorem Numbered.ne_nil_iff {numThreads : UInt32} (h : Numbered numThreads packets) :
    packets ≠ [] ↔ numThreads ≠ 0 := by
  rw [Ne, ← List.length_eq_zero_iff, h.length, ← UInt32.toNat_zero, UInt32.toNat_inj]

theorem Numbered.threadId_eq_zero {numThreads : UInt32} (h : Numbered numThreads packets)
    {pkt : MemLatBwThreadPacket} (hi : packets[i]? = some pkt) : pkt.threadId = 0 ↔ i = 0 := by
  obtain ⟨hlt, -⟩ := List.getElem?_eq_some_iff.1 hi
  rw [h.length] at hlt
  have hid : (packets.map MemLatBwThreadPacket.threadId)[i]? = some pkt.threadId := by
    rw [List.getElem?_map, hi]
    rfl
  rw [h, List.getElem?_map, List.getElem?_range hlt] at hid
  rw [← Option.some.inj hid, ← UInt32.toNat_inj,
    UInt32.toNat_ofNat_of_lt' (Nat.lt_trans hlt numThreads.toNat_lt), UInt32.toNat_zero]

/-- The rounds of a run that is done. -/
structure LoadedTrace (config : Configuration) (numCpus : UInt32)
    (measured : Nat → LoadedMeasurement) (delaysAndKernels : List (Int32 × Code))
    (fed : Nat → LoadedState) (results : List LoadedRound) : Prop where
  length : results.length = delaysAndKernels.length
  lastLatPs_zero : (fed 0).lastLatPs = 0
  lastBwGbps_zero : (fed 0).lastBwGbps = 0
  /-- what a round hands back is positive from 1 ps and 1 GB/s on -/
  fed_succ : ∀ k < delaysAndKernels.length, (measured k).Fits ∧
    ((fed (k + 1)).lastLatPs > 0 ↔ 1 ≤ (measured k).latencyNs * 1000) ∧
    ((fed (k + 1)).lastBwGbps > 0 ↔ 1 ≤ memBwGbps (measured k).memBw)
  numbered : ∀ k ≤ delaysAndKernels.length, Numbered config.numThreads (fed k).packets
  numThreads : delaysAndKernels ≠ [] → config.numThreads ≠ 0
  each : ∀ k < delaysAndKernels.length, ∃ round, results[k]? = some round ∧
    round.packets = (fed k).packets.map (fun pkt =>
      pkt.forLoadedLatency config numCpus (fed k).lastLatPs (fed k).lastBwGbps) ∧
    (round.shown.isSome = true ↔ (fed k).lastLatPs > 0 ∨ (fed k).lastBwGbps > 0)

theorem runLoadedLatency_trace {delaysAndKernels : List (Int32 × Code)}
    (h : runLoadedLatency config numCpus measured delaysAndKernels = .done results) :
    ∃ fed, LoadedTrace config numCpus measured delaysAndKernels fed results := by
  obtain ⟨fed, hfed, htrace⟩ := rounds_trace h
  have hnumbered : ∀ k ≤ delaysAndKernels.length, Numbered config.numThreads (fed k).packets := by
    intro k hk
    refine htrace.invariant (I := fun s => Numbered config.numThreads s.packets) ?_ ?_ hk
    · rw [hfed]
      exact preparePackets_numbered config (-1) config.numThreads
    · intro k s item round s' hs hstep
      rw [(loadedStep_eq_done.1 hstep).2.2.2.1]
      exact hs.forLoadedLatency config numCpus _ _
  refine ⟨fed, htrace.length, by rw [hfed], by rw [hfed], fun k hk => ?_, hnumbered, fun hne => ?_,
    fun k hk => ?_⟩
  · obtain ⟨round, -, hstep⟩ := htrace.round_at hk
    obtain ⟨-, hlat, hbw, -, -⟩ := loadedStep_eq_done.1 hstep
    exact ⟨⟨(castUInt32_eq_done.1 hlat).1.2, (castUInt32_eq_done.1 hbw).1.2⟩, castUInt32_pos hlat,
      castUInt32_pos hbw⟩
  · obtain ⟨round, -, hstep⟩ := htrace.round_at (List.length_pos_iff.2 hne)
    exact (hnumbered 0 (Nat.zero_le _)).ne_nil_iff.1 (loadedStep_eq_done.1 hstep).1
  · obtain ⟨round, hget, hstep⟩ := htrace.round_at hk
    obtain ⟨-, -, -, hpackets, rfl⟩ := loadedStep_eq_done.1 hstep
    refine ⟨_, hget, hpackets, ?_⟩
    dsimp only
    split
    · next hpos => exact iff_of_true rfl hpos
    · next hpos => exact iff_of_false nofun hpos

theorem exists_runLoadedLatency (config : Configuration) (numCpus : UInt32)
    (measured : Nat → LoadedMeasurement) (delaysAndKernels : List (Int32 × Code))
    (hthreads : delaysAndKernels ≠ [] → config.numThreads ≠ 0)
    (hmeasured : ∀ k, 0 < (measured k).latencyNs ∧ 0 < (measured k).memBw)
    (hfit : ∀ k < delaysAndKernels.length, (measured k).Fits) :
    ∃ results, runLoadedLatency config numCpus measured delaysAndKernels = .done results := by
  apply exists_rounds (I := fun s => Numbered config.numThreads s.packets)
    (preparePackets_numbered config (-1) config.numThreads)
  intro k hk s item hs
  rw [Nat.zero_add]
  have hne : delaysAndKernels ≠ [] := List.length_pos_iff.1 (Nat.zero_lt_of_lt hk)
  have hlat : 0 < (measured k).latencyNs * 1000 := mul_pos (hmeasured k).1 (by norm_num)
  have hbw := memBwGbps_pos (hmeasured k).2
  refine ⟨_, ⟨_, _, _⟩, loadedStep_eq_done.2 ⟨hs.ne_nil_iff.2 (hthreads hne),
    castUInt32_eq_done.2 ⟨⟨by linarith, (hfit k hk).1⟩, rfl⟩,
    castUInt32_eq_done.2 ⟨⟨by linarith, (hfit k hk).2⟩, rfl⟩, rfl, rfl⟩, ?_⟩
  exact hs.forLoadedLatency config numCpus _ _

theorem Numbered.targetDuration {numThreads : UInt32} (h : Numbered numThreads packets)
    (config : Configuration) (numCpus lat bw : UInt32) (hi : i < numThreads.toNat) :
    ∃ pkt, (packets.map fun pkt => pkt.forLoadedLatency config numCpus lat bw)[i]? = some pkt ∧
      pkt.targetDuration = if (if i = 0 then lat else bw) > 0 then config.targetDurationS else 1 := by
  have hlt : i < packets.length := by
    rwa [h.length]
  have hget := List.getElem?_eq_getElem hlt
  refine ⟨packets[i].forLoadedLatency config numCpus lat bw, ?_, ?_⟩
  · rw [List.getElem?_map, hget]
    rfl
  rw [MemLatBwThreadPacket.forLoadedLatency]
  dsimp only
  by_cases hzero : i = 0
  · rw [if_pos ((h.threadId_eq_zero hget).2 hzero), if_pos hzero]
  · rw [if_neg (mt (h.threadId_eq_zero hget).1 hzero), if_neg hzero]

/-- All workers of a round get the duration that is asked for, or one of them only a second. -/
theorem Numbered.loaded_iff {numThreads : UInt32} (h : Numbered numThreads packets)
    (hne : numThreads ≠ 0) (config : Configuration) (numCpus lat bw : UInt32) :
    (∀ i < numThreads.toNat, ∃ pkt,
      (packets.map fun pkt => pkt.forLoadedLatency config numCpus lat bw)[i]? = some pkt ∧
        pkt.targetDuration = config.targetDurationS) ↔
      config.targetDurationS = 1 ∨ (lat > 0 ∧ (bw > 0 ∨ numThreads = 1)) := by
  have hzero : numThreads.toNat ≠ 0 := mt (fun he => UInt32.toNat_inj.1 he) hne
  have hone : numThreads = 1 ↔ numThreads.toNat = 1 := UInt32.toNat_inj.symm
  constructor
  · intro hall
    have hat : ∀ i < numThreads.toNat, config.targetDurationS = 1 ∨ (if i = 0 then lat else bw) > 0 := by
      intro i hi
      obtain ⟨pkt, hget, hduration⟩ := hall i hi
      obtain ⟨pkt', hget', hduration'⟩ := h.targetDuration config numCpus lat bw hi
      rw [hget] at hget'
      cases hget'
      rw [hduration] at hduration'
      by_cases hpos : (if i = 0 then lat else bw) > 0
      · exact .inr hpos
      · rw [if_neg hpos] at hduration'
        exact .inl hduration'
    rcases hat 0 (Nat.pos_of_ne_zero hzero) with hs | hlat
    · exact .inl hs
    · by_cases hsingle : numThreads = 1
      · exact .inr ⟨hlat, .inr hsingle⟩
      · have hlt : 1 < numThreads.toNat := by
          rw [hone] at hsingle
          omega
        rcases hat 1 hlt with hs | hbw
        · exact .inl hs
        · exact .inr ⟨hlat, .inl hbw⟩
  · intro hkeeps i hi
    obtain ⟨pkt, hget, hduration⟩ := h.targetDuration config numCpus lat bw hi
    refine ⟨pkt, hget, ?_⟩
    rw [hduration]
    rcases hkeeps with hs | ⟨hlat, hbw⟩
    · rw [hs, ite_self]
    · by_cases hi0 : i = 0
      · rw [if_pos hi0, if_pos hlat]
      · rcases hbw with hbw | hsingle
        · rw [if_neg hi0, if_pos hbw]
        · rw [hone.1 hsingle] at hi
          omega

theorem LoadedTrace.throughout_iff {delaysAndKernels : List (Int32 × Code)} {fed : Nat → LoadedState}
    (h : LoadedTrace config numCpus measured delaysAndKernels fed results) :
    LoadedThroughout config results ↔
      ∀ k, k + 1 < delaysAndKernels.length → (measured k).KeepsDuration config := by
  -- what the round after the `k`-th is to do, by what the `k`-th hands back
  have hkeeps : ∀ k, k + 1 < delaysAndKernels.length → ((measured k).KeepsDuration config ↔
      ((fed (k + 1)).lastLatPs > 0 ∨ (fed (k + 1)).lastBwGbps > 0 →
        config.targetDurationS = 1 ∨
          ((fed (k + 1)).lastLatPs > 0 ∧ ((fed (k + 1)).lastBwGbps > 0 ∨ config.numThreads = 1)))) := by
    intro k hk
    obtain ⟨-, hlat, hbw⟩ := h.fed_succ k (Nat.lt_of_succ_lt hk)
    rw [LoadedMeasurement.KeepsDuration, hlat, hbw, ← not_le, ← not_le, ← not_or,
      ← imp_iff_not_or]
  have hround : ∀ k, (hk : k < delaysAndKernels.length) → ∃ round, results[k]? = some round ∧
      ((round.shown.isSome = true → ∀ i < config.numThreads.toNat, ∃ pkt,
        round.packets[i]? = some pkt ∧ pkt.targetDuration = config.targetDurationS) ↔
      ((fed k).lastLatPs > 0 ∨ (fed k).lastBwGbps > 0 → config.targetDurationS = 1 ∨
        ((fed k).lastLatPs > 0 ∧ ((fed k).lastBwGbps > 0 ∨ config.numThreads = 1)))) := by
    intro k hk
    obtain ⟨round, hget, hpackets, hshown⟩ := h.each k hk
    have hne := h.numThreads (List.length_pos_iff.1 (Nat.zero_lt_of_lt hk))
    refine ⟨round, hget, ?_⟩
    rw [hpackets, hshown, (h.numbered k (Nat.le_of_lt hk)).loaded_iff hne]
  constructor
  · intro hloaded k hk
    obtain ⟨round, hget, hiff⟩ := hround (k + 1) hk
    rw [hkeeps k hk, ← hiff]
    exact hloaded round (List.mem_of_getElem? hget)
  · intro hall round hmem
    obtain ⟨k, hget⟩ := List.mem_iff_getElem?.1 hmem
    obtain ⟨hk, -⟩ := List.getElem?_eq_some_iff.1 hget
    rw [h.length] at hk
    obtain ⟨round', hget', hiff⟩ := hround k hk
    rw [hget] at hget'
    cases hget'
    rw [hiff]
    cases k with
    | zero =>
      rw [h.lastLatPs_zero, h.lastBwGbps_zero]
      exact fun hpos => absurd hpos (by decide)
    | succ k => exact (hkeeps k hk).1 (hall k hk)

/-- Every printed latency is measured under load for as long as asked, exactly if each number that
is handed back fits and, from round to round, is rounded down to 0 together with the other or not
at all; what a single worker has no load to share does not matter. -/
theorem loaded_latency_under_load (config : Configuration) (numCpus : UInt32)
    (measured : Nat → LoadedMeasurement) (delaysAndKernels : List (Int32 × Code))
    (hmeasured : ∀ k, 0 < (measured k).latencyNs ∧ 0 < (measured k).memBw) :
    (∃ results, runLoadedLatency config numCpus measured delaysAndKernels = .done results ∧
      LoadedThroughout config results) ↔
    (delaysAndKernels ≠ [] → config.numThreads ≠ 0) ∧
      (∀ k < delaysAndKernels.length, (measured k).Fits) ∧
      ∀ k, k + 1 < delaysAndKernels.length → (measured k).KeepsDuration config := by
  constructor
  · rintro ⟨results, hdone, hloaded⟩
    obtain ⟨fed, htrace⟩ := runLoadedLatency_trace hdone
    exact ⟨htrace.numThreads, fun k hk => (htrace.fed_succ k hk).1,
      htrace.throughout_iff.1 hloaded⟩
  · rintro ⟨hthreads, hfit, hkeeps⟩
    obtain ⟨results, hdone⟩ := exists_runLoadedLatency config numCpus measured delaysAndKernels
      hthreads hmeasured hfit
    obtain ⟨fed, htrace⟩ := runLoadedLatency_trace hdone
    exact ⟨results, hdone, htrace.throughout_iff.2 hkeeps⟩

/-- 100 ns and 16 GB/s in each of two rounds. -/
theorem loaded_latency_under_load_fast :
    let numa := NumaConfig.new ⟨0, 2, 2, fun _ => true, fun _ => 2 ^ 34, fun _ => some fun _ => true⟩
    let config := Configuration.byDefault .latencyBandwidth numa
    ∃ results, runLoadedLatency config 2 (fun _ => ⟨100, 2 ^ 34⟩) [(1, kR2w1SN1), (8, kR2w1SN8)] =
      .done results ∧ LoadedThroughout config results := by
  intro numa config
  have hgbps : memBwGbps (2 ^ 34) = 16 := by
    norm_num [memBwGbps, memBwMbps]
  apply (loaded_latency_under_load config 2 (fun _ => ⟨100, 2 ^ 34⟩) _ ?_).2
  · refine ⟨fun _ => by decide, fun k _ => ?_, fun k _ => .inr (.inr ?_)⟩
    · rw [LoadedMeasurement.Fits, hgbps]
      norm_num
    · rw [hgbps]
      norm_num
  · intro _
    norm_num

/-- 100 ns and half a GB/s: the second row is printed after a load of one second. -/
theorem loaded_latency_unloaded :
    let numa := NumaConfig.new ⟨0, 2, 2, fun _ => true, fun _ => 2 ^ 34, fun _ => some fun _ => true⟩
    ∃ config, Configuration.parseOptions .latencyBandwidth numa ["cpu_loaded_latency".toList] =
        .done (.ok config) ∧ config.targetDurationS = 10 ∧ config.numThreads = 2 ∧
      ¬ ∃ results, runLoadedLatency config 2 (fun _ => ⟨100, 2 ^ 29⟩)
        [(1, kR2w1SN1), (8, kR2w1SN8)] = .done results ∧ LoadedThroughout config results := by
  intro numa
  refine ⟨_, Configuration.parseOptions_none _ _ _, by decide, by decide, ?_⟩
  rintro ⟨results, hdone, hloaded⟩
  obtain ⟨fed, htrace⟩ := runLoadedLatency_trace hdone
  have hgbps : memBwGbps (2 ^ 29) = 1 / 2 := by
    norm_num [memBwGbps, memBwMbps]
  rcases htrace.throughout_iff.1 hloaded 0 (by decide) with ⟨hlat, -⟩ | hduration | ⟨-, hbw⟩
  · norm_num at hlat
  · exact absurd hduration (by decide)
  · rw [hgbps] at hbw
    rcases hbw with hbw | hthreads
    · norm_num at hbw
    · exact absurd hthreads (by decide)

end MmMem

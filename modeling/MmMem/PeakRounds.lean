import MmMem.BandwidthKernels
import MmMem.LatencyDrivers
import MmMem.Library.Rounds
import MmMem.MatrixTable
import Mathlib.Algebra.Order.Floor.Semiring

namespace MmMem
open Prog
set_option autoImplicit true

/-- What the rounds of a benchmark must not do. -/
inductive RoundFault where
  /-- the conversion of a `double` that its type cannot hold -/
  | castOutOfRange (value : ℚ)
  | frontOfEmptyList
  | noPacket (index : Nat)
  deriving Repr, DecidableEq

/-- `static_cast<uint32_t>` of a floating point number -/
def castUInt32 (x : ℚ) : Run RoundFault UInt32 :=
  if -1 < x ∧ x < 2 ^ 32 then .done (.ofNat ⌊x⌋₊) else .fault (.castOutOfRange x)

def memBwMbps (memBw : ℚ) : ℚ := memBw / 1024 / 1024

def memBwGbps (memBw : ℚ) : ℚ := memBwMbps memBw / 1024

def getStrRwMix (readWriteMix : UInt32) : Text :=
  if readWriteMix = 0 then "all reads".toList
  else if readWriteMix = 1 then "1:1 read/write".toList
  else if readWriteMix = 2 then "2:1 read/write".toList
  else if readWriteMix = 3 then "3:1 read/write".toList
  else if readWriteMix = 100 then "sweep read/write ratio".toList
  else "invalid".toList

/-- What a round prints: a cell of the matrix or a line. -/
inductive PeakResult where
  | cell (gbps : ℚ)
  | line (mix : Text) (mbps gbps : ℚ)
  deriving Repr, DecidableEq

def peakResult (config : Configuration) (readWriteMix : UInt32) (memBw : ℚ) : PeakResult :=
  if config.bandwidthMatrix then .cell (memBwGbps memBw)
  else .line (getStrRwMix readWriteMix) (memBwMbps memBw) (memBwGbps memBw)

/-- A round: what the workers run and are handed, and what is printed after it. -/
structure PeakRound where
  kernel : Code
  packets : List MemLatBwThreadPacket
  shown : Option PeakResult
  deriving DecidableEq

/-- A round of `measure_peak_bandwidth` that comes to `memBw` bytes in a second. -/
def measurePeakBandwidth (config : Configuration) (numCpus : UInt32) (memBw : ℚ)
    (packets : List MemLatBwThreadPacket) (kernel : Code)
    (readWriteMix lastMeasuredBwGbps : UInt32) : Run RoundFault (PeakRound × UInt32) := do
  let packets := packets.map fun pkt =>
    pkt.forPeakBandwidth config numCpus readWriteMix lastMeasuredBwGbps
  let shown :=
    if lastMeasuredBwGbps > 0 then some (peakResult config readWriteMix memBw) else none
  let lastBwGbps ← castUInt32 (memBwGbps memBw)
  return ({ kernel, packets, shown }, lastBwGbps)

/-- The `k`-th trip of the loop of `run`; the packets stay as the round before it left them. -/
def peakStep (config : Configuration) (numCpus : UInt32) (measured : Nat → ℚ) (k : Nat)
    (s : List MemLatBwThreadPacket × UInt32) (item : UInt32 × Code) :
    Run RoundFault (PeakRound × List MemLatBwThreadPacket × UInt32) := do
  let (round, lastBwGbps) ←
    measurePeakBandwidth config numCpus (measured k) s.1 item.2 item.1 s.2
  return (round, round.packets, lastBwGbps)

/-- `run` of `cpu_peak_bandwidth`, for the bytes in a second that its rounds come to. -/
def runPeakBandwidth (config : Configuration) (numCpus : UInt32) (measured : Nat → ℚ)
    (packets : List MemLatBwThreadPacket) : Run RoundFault (List PeakRound) :=
  match rwmixAndKernels config.readWriteMix with
  | [] => .fault .frontOfEmptyList
  | first :: later =>
    rounds (peakStep config numCpus measured) 0 (packets, 0) (first :: first :: later)

theorem castUInt32_eq_done : castUInt32 x = .done u ↔
    (-1 < x ∧ x < 2 ^ 32) ∧ u = .ofNat ⌊x⌋₊ := by
  rw [castUInt32]
  split
  · next h => exact ⟨fun he => ⟨h, (Run.done.inj he).symm⟩, fun he => congrArg Run.done he.2.symm⟩
  · next h => exact ⟨nofun, fun he => absurd he.1 h⟩

theorem castUInt32_pos (h : castUInt32 x = .done u) : u > 0 ↔ 1 ≤ x := by
  obtain ⟨⟨hlow, hhigh⟩, rfl⟩ := castUInt32_eq_done.1 h
  have hlt : ⌊x⌋₊ < 2 ^ 32 := by
    rcases le_or_gt 0 x with hx | hx
    · rw [Nat.floor_lt hx]
      exact_mod_cast hhigh
    · rw [Nat.floor_of_nonpos hx.le]
      decide
  rw [gt_iff_lt, UInt32.lt_iff_toNat_lt, UInt32.toNat_ofNat_of_lt' hlt, UInt32.toNat_zero,
    Nat.floor_pos]

theorem memBwGbps_pos (h : 0 < memBw) : 0 < memBwGbps memBw := by
  rw [memBwGbps, memBwMbps]
  positivity

theorem rwmixAndKernels_mixes (mix : UInt32) :
    (rwmixAndKernels mix).map Prod.fst = getKernelsWithWrmix mix := by
  rw [rwmixAndKernels, getKernelsWithWrmix]
  split_ifs <;> rfl

theorem rwmixAndKernels_cons (mix : UInt32) :
    ∃ first later, rwmixAndKernels mix = first :: later := by
  rw [rwmixAndKernels]
  split_ifs <;> exact ⟨_, _, rfl⟩

/-- A warm-up that prints nothing, then each of the kernels listed, measured as long as asked. -/
structure ReportsEachMix (config : Configuration) (numThreads : Nat) (measured : Nat → ℚ)
    (results : List PeakRound) : Prop where
  length : results.length = (rwmixAndKernels config.readWriteMix).length + 1
  warmUp : ∀ round, results[0]? = some round → round.shown = none
  each : ∀ (k : Nat) (mix : UInt32) (kernel : Code),
    (rwmixAndKernels config.readWriteMix)[k]? = some (mix, kernel) →
      ∃ round, results[k + 1]? = some round ∧ round.kernel = kernel ∧
        round.shown = some (peakResult config mix (measured (k + 1))) ∧
        round.packets.length = numThreads ∧ ∀ pkt ∈ round.packets,
          pkt.readWriteMix = mix ∧ pkt.targetDuration = config.targetDurationS

variable {config : Configuration} {numCpus : UInt32} {measured : Nat → ℚ}

theorem peakStep_eq_done {s s' : List MemLatBwThreadPacket × UInt32} {item : UInt32 × Code}
    {round : PeakRound} :
    peakStep config numCpus measured k s item = .done (round, s') ↔
      castUInt32 (memBwGbps (measured k)) = .done s'.2 ∧
        s'.1 = s.1.map (fun pkt => pkt.forPeakBandwidth config numCpus item.1 s.2) ∧
        round = ⟨item.2, s'.1,
          if s.2 > 0 then some (peakResult config item.1 (measured k)) else none⟩ := by
  obtain ⟨packets, lastBwGbps⟩ := s'
  rw [peakStep, measurePeakBandwidth]
  constructor
  · intro h
    obtain ⟨_, hround, h⟩ := Run.bind_eq_done.1 h
    obtain ⟨u, hcast, hround⟩ := Run.bind_eq_done.1 hround
    cases hround
    cases h
    exact ⟨hcast, rfl, rfl⟩
  · rintro ⟨hcast, rfl, rfl⟩
    rw [hcast]
    rfl

/-- The rounds of a run that is done: the warm-up, then one for each kernel of the list. -/
structure PeakTrace (config : Configuration) (numCpus : UInt32) (measured : Nat → ℚ)
    (numThreads : Nat) (fed : Nat → List MemLatBwThreadPacket × UInt32)
    (results : List PeakRound) : Prop where
  length : results.length = (rwmixAndKernels config.readWriteMix).length + 1
  lastBwGbps_zero : (fed 0).2 = 0
  /-- what a round hands back is positive from 1 GB/s on -/
  lastBwGbps_succ : ∀ k ≤ (rwmixAndKernels config.readWriteMix).length,
    memBwGbps (measured k) < 2 ^ 32 ∧ ((fed (k + 1)).2 > 0 ↔ 1 ≤ memBwGbps (measured k))
  numThreads : ∀ k ≤ (rwmixAndKernels config.readWriteMix).length, (fed k).1.length = numThreads
  first : ∃ round, results[0]? = some round ∧ round.shown = none
  each : ∀ (k : Nat) (item : UInt32 × Code), (rwmixAndKernels config.readWriteMix)[k]? = some item →
    ∃ round, results[k + 1]? = some round ∧ round = ⟨item.2,
      (fed (k + 1)).1.map fun pkt => pkt.forPeakBandwidth config numCpus item.1 (fed (k + 1)).2,
      if (fed (k + 1)).2 > 0 then some (peakResult config item.1 (measured (k + 1))) else none⟩

theorem runPeakBandwidth_trace {packets : List MemLatBwThreadPacket}
    (h : runPeakBandwidth config numCpus measured packets = .done results) :
    ∃ fed, PeakTrace config numCpus measured packets.length fed results := by
  obtain ⟨first, later, hlist⟩ := rwmixAndKernels_cons config.readWriteMix
  rw [runPeakBandwidth, hlist] at h
  obtain ⟨fed, hfed, htrace⟩ := rounds_trace h
  have hlength : ∀ k ≤ (first :: first :: later).length, (fed k).1.length = packets.length := by
    intro k hk
    refine htrace.invariant (I := fun s => s.1.length = packets.length) ?_ ?_ hk
    · rw [hfed]
    · intro k s item round s' hs hstep
      rw [(peakStep_eq_done.1 hstep).2.1, List.length_map, hs]
  have hlast : (fed 0).2 = 0 := by
    rw [hfed]
  refine ⟨fed, ?_, hlast, fun k hk => ?_, fun k hk => ?_, ?_, fun k item hitem => ?_⟩
  · rw [htrace.length, hlist]
    rfl
  · rw [hlist] at hk
    obtain ⟨round, -, hround⟩ := htrace.round_at (Nat.lt_succ_of_le hk)
    have hcast := (peakStep_eq_done.1 hround).1
    exact ⟨(castUInt32_eq_done.1 hcast).1.2, castUInt32_pos hcast⟩
  · rw [hlist] at hk
    exact hlength k (Nat.le_succ_of_le hk)
  · obtain ⟨round, hget, hround⟩ := htrace.round 0 first rfl
    refine ⟨round, hget, ?_⟩
    rw [(peakStep_eq_done.1 hround).2.2, hlast]
    rfl
  · rw [hlist] at hitem
    obtain ⟨round, hget, hround⟩ := htrace.round (k + 1) item hitem
    obtain ⟨-, hpackets, hround⟩ := peakStep_eq_done.1 hround
    rw [Nat.zero_add] at hround
    exact ⟨round, hget, by rw [hround, hpackets]⟩

theorem exists_runPeakBandwidth (config : Configuration) (numCpus : UInt32) (measured : Nat → ℚ)
    (packets : List MemLatBwThreadPacket)
    (hfit : ∀ k ≤ (rwmixAndKernels config.readWriteMix).length,
      -1 < memBwGbps (measured k) ∧ memBwGbps (measured k) < 2 ^ 32) :
    ∃ results, runPeakBandwidth config numCpus measured packets = .done results := by
  obtain ⟨first, later, hlist⟩ := rwmixAndKernels_cons config.readWriteMix
  rw [runPeakBandwidth, hlist]
  apply exists_rounds (I := fun _ => True) trivial
  intro k hk s item _
  have hle : 0 + k ≤ (rwmixAndKernels config.readWriteMix).length := by
    rw [hlist, Nat.zero_add]
    exact Nat.le_of_lt_succ hk
  exact ⟨_, (_, _), peakStep_eq_done.2 ⟨castUInt32_eq_done.2 ⟨hfit _ hle, rfl⟩, rfl, rfl⟩, trivial⟩

theorem rounds_cells {items : List (UInt32 × Code)} {s : List MemLatBwThreadPacket × UInt32}
    (hmatrix : config.bandwidthMatrix = true)
    (h : rounds (peakStep config numCpus measured) k s items = .done results) :
    results.filterMap PeakRound.shown =
      (runRounds (fun memBw => .ofNat ⌊memBwGbps memBw⌋₊) s.2
        ((List.range' k items.length).map measured)).map fun memBw => .cell (memBwGbps memBw) := by
  induction items generalizing k s results with
  | nil =>
    cases h
    rfl
  | cons item items ih =>
    obtain ⟨⟨round, s'⟩, hstep, h⟩ := Run.bind_eq_done.1 h
    obtain ⟨later, hlater, h⟩ := Run.bind_eq_done.1 h
    cases h
    obtain ⟨hcast, -, rfl⟩ := peakStep_eq_done.1 hstep
    have hlast := (castUInt32_eq_done.1 hcast).2
    rw [List.length_cons, List.range'_succ, List.map_cons, runRounds, measureRound,
      List.filterMap_cons]
    dsimp only
    rw [List.map_append, ← hlast, ← ih hlater]
    by_cases hpos : s.2 > 0
    · rw [if_pos hpos, if_pos hpos, peakResult, if_pos hmatrix]
      rfl
    · rw [if_neg hpos, if_neg hpos]
      rfl

/-- `runPeakBandwidth` fills a cell of `peakBandwidthMatrix`. -/
theorem runPeakBandwidth_cells {packets : List MemLatBwThreadPacket}
    (hmatrix : config.bandwidthMatrix = true)
    (h : runPeakBandwidth config numCpus measured packets = .done results) :
    let kernels := getKernelsWithWrmix config.readWriteMix
    results.filterMap PeakRound.shown =
      (runRounds (fun memBw => .ofNat ⌊memBwGbps memBw⌋₊) 0
        ((List.range (kernels.take 1 ++ kernels).length).map measured)).map
          fun memBw => .cell (memBwGbps memBw) := by
  intro kernels
  obtain ⟨first, later, hlist⟩ := rwmixAndKernels_cons config.readWriteMix
  have hlength : (kernels.take 1 ++ kernels).length = (first :: first :: later).length := by
    rw [show kernels = (first :: later).map Prod.fst by rw [← hlist, rwmixAndKernels_mixes]]
    rw [List.length_append, List.map_cons, List.take_succ_cons, List.length_cons, List.length_cons,
      List.length_map]
    simp only [List.take_zero, List.length_nil, List.length_cons]
    omega
  rw [runPeakBandwidth, hlist] at h
  rw [hlength, List.range_eq_range']
  exact rounds_cells hmatrix h

/-- A run reports each mix exactly if every round but the last came to 1 GB/s. -/
theorem PeakTrace.reportsEachMix_iff {numThreads : Nat}
    {fed : Nat → List MemLatBwThreadPacket × UInt32}
    (h : PeakTrace config numCpus measured numThreads fed results) :
    ReportsEachMix config numThreads measured results ↔
      ∀ k < (rwmixAndKernels config.readWriteMix).length, 1 ≤ memBwGbps (measured k) := by
  constructor
  · intro hreports k hk
    have hitem := List.getElem?_eq_getElem hk
    obtain ⟨round, hget, -, hshown, -⟩ := hreports.each k _ _ hitem
    obtain ⟨round', hget', rfl⟩ := h.each k _ hitem
    rw [hget] at hget'
    cases hget'
    refine (h.lastBwGbps_succ k (Nat.le_of_lt hk)).2.1 ?_
    by_contra hzero
    rw [if_neg hzero] at hshown
    cases hshown
  · intro hlarge
    refine ⟨h.length, fun round hround => ?_, fun k mix kernel hitem => ?_⟩
    · obtain ⟨round', hget, hshown⟩ := h.first
      rw [hround] at hget
      cases hget
      exact hshown
    · obtain ⟨hk, -⟩ := List.getElem?_eq_some_iff.1 hitem
      have hpos := (h.lastBwGbps_succ k (Nat.le_of_lt hk)).2.2 (hlarge k hk)
      obtain ⟨round, hget, rfl⟩ := h.each k _ hitem
      refine ⟨_, hget, rfl, if_pos hpos, ?_, fun pkt hpkt => ?_⟩
      · rw [List.length_map, h.numThreads (k + 1) hk]
      · obtain ⟨before, -, rfl⟩ := List.mem_map.1 hpkt
        exact ⟨rfl, if_pos hpos⟩

/-- Rounds that all stay below 1 GB/s are taken for warm-ups. -/
theorem PeakTrace.silent {numThreads : Nat} {fed : Nat → List MemLatBwThreadPacket × UInt32}
    (h : PeakTrace config numCpus measured numThreads fed results)
    (hslow : ∀ k, memBwGbps (measured k) < 1) : ∀ round ∈ results, round.shown = none := by
  intro round hround
  obtain ⟨i, hi⟩ := List.mem_iff_getElem?.1 hround
  cases i with
  | zero =>
    obtain ⟨round', hget, hshown⟩ := h.first
    rw [hi] at hget
    cases hget
    exact hshown
  | succ k =>
    obtain ⟨hlt, -⟩ := List.getElem?_eq_some_iff.1 hi
    rw [h.length] at hlt
    have hk := Nat.lt_of_succ_lt_succ hlt
    obtain ⟨round', hget, rfl⟩ := h.each k _ (List.getElem?_eq_getElem hk)
    rw [hi] at hget
    cases hget
    apply if_neg
    intro hpos
    exact absurd ((h.lastBwGbps_succ k (Nat.le_of_lt hk)).2.1 hpos) (not_le.2 (hslow k))

/-- Every mix that is asked for is reported exactly if each round comes to less than 2^32 GB/s and
each but the last to at least 1 GB/s: a round that is rounded down to 0 silences the next. -/
theorem peak_bandwidth_reports_each_mix (config : Configuration) (numCpus : UInt32)
    (packets : List MemLatBwThreadPacket) (measured : Nat → ℚ) (hmeasured : ∀ k, 0 < measured k) :
    (∃ results, runPeakBandwidth config numCpus measured packets = .done results ∧
      ReportsEachMix config packets.length measured results) ↔
    (∀ k ≤ (rwmixAndKernels config.readWriteMix).length, memBwGbps (measured k) < 2 ^ 32) ∧
      ∀ k < (rwmixAndKernels config.readWriteMix).length, 1 ≤ memBwGbps (measured k) := by
  constructor
  · rintro ⟨results, hdone, hreports⟩
    obtain ⟨fed, htrace⟩ := runPeakBandwidth_trace hdone
    exact ⟨fun k hk => (htrace.lastBwGbps_succ k hk).1, htrace.reportsEachMix_iff.1 hreports⟩
  · rintro ⟨hfit, hlarge⟩
    have hcast : ∀ k ≤ (rwmixAndKernels config.readWriteMix).length,
        -1 < memBwGbps (measured k) ∧ memBwGbps (measured k) < 2 ^ 32 := by
      intro k hk
      exact ⟨by linarith [memBwGbps_pos (hmeasured k)], hfit k hk⟩
    obtain ⟨results, hdone⟩ := exists_runPeakBandwidth config numCpus measured packets hcast
    obtain ⟨fed, htrace⟩ := runPeakBandwidth_trace hdone
    exact ⟨results, hdone, htrace.reportsEachMix_iff.2 hlarge⟩

/-- A machine that comes to 16 GB/s in each round of the sweep. -/
theorem peak_bandwidth_reports_each_mix_fast :
    let numa := NumaConfig.new ⟨0, 1, 1, fun _ => true, fun _ => 2 ^ 34, fun _ => some fun _ => true⟩
    let config := Configuration.byDefault .bandwidth numa
    let packets := preparePackets config (-1) config.numThreads
    ∃ results, runPeakBandwidth config 1 (fun _ => 2 ^ 34) packets = .done results ∧
      ReportsEachMix config packets.length (fun _ => 2 ^ 34) results := by
  intro numa config packets
  have hgbps : memBwGbps (2 ^ 34) = 16 := by
    norm_num [memBwGbps, memBwMbps]
  apply (peak_bandwidth_reports_each_mix config 1 packets (fun _ => 2 ^ 34) ?_).2
  · rw [hgbps]
    exact ⟨fun _ _ => by norm_num, fun _ _ => by norm_num⟩
  · intro _
    norm_num

/-- Without options, at half a GB/s: the rounds of the sweep end and nothing is reported. -/
theorem peak_bandwidth_reports_nothing :
    let numa := NumaConfig.new ⟨0, 1, 1, fun _ => true, fun _ => 2 ^ 34, fun _ => some fun _ => true⟩
    ∃ config, Configuration.parseOptions .bandwidth numa ["cpu_peak_bandwidth".toList] =
        .done (.ok config) ∧
      let packets := preparePackets config (-1) config.numThreads
      (∃ results, runPeakBandwidth config 1 (fun _ => 2 ^ 29) packets = .done results ∧
        ∀ round ∈ results, round.shown = none) ∧
      ¬ ∃ results, runPeakBandwidth config 1 (fun _ => 2 ^ 29) packets = .done results ∧
        ReportsEachMix config packets.length (fun _ => 2 ^ 29) results := by
  intro numa
  have hgbps : memBwGbps (2 ^ 29) = 1 / 2 := by
    norm_num [memBwGbps, memBwMbps]
  refine ⟨_, Configuration.parseOptions_none _ _ _, ?_⟩
  intro packets
  have hfit : -1 < memBwGbps (2 ^ 29) ∧ memBwGbps (2 ^ 29) < 2 ^ 32 := by
    rw [hgbps]
    norm_num
  obtain ⟨results, hdone⟩ := exists_runPeakBandwidth (.byDefault .bandwidth numa) 1
    (fun _ => 2 ^ 29) packets fun _ _ => hfit
  obtain ⟨fed, htrace⟩ := runPeakBandwidth_trace hdone
  constructor
  · refine ⟨results, hdone, htrace.silent fun _ => ?_⟩
    rw [hgbps]
    norm_num
  · rintro ⟨results', hdone', hreports⟩
    rw [hdone] at hdone'
    cases hdone'
    have hlarge := htrace.reportsEachMix_iff.1 hreports 0 (by decide)
    rw [hgbps] at hlarge
    norm_num at hlarge

end MmMem

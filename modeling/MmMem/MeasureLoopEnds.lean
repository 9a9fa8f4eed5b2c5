import MmMem.MemRegionLayout
import MmMem.WorkerLoops
import Mathlib.Algebra.Order.Ring.Int

namespace MmMem
open Prog
set_option autoImplicit true

namespace MeasureLoop

variable {l : MeasureLoop} {clock : Nat → Int}

/-- A clock that passes every bound, but only after a given number of calls of the kernel. -/
def lateClock (m : Nat) (target : Int) (n : Nat) : Int := if n ≤ m then 0 else target + n

theorem lateClock_advancing (m : Nat) (h : 0 ≤ target) : Advancing (lateClock m target) where
  mono := by
    apply monotone_nat_of_le_succ
    intro n
    simp only [lateClock]
    split <;> split <;> omega
  unbounded b := by
    refine ⟨m + 1 + b.toNat, ?_⟩
    simp only [lateClock]
    rw [if_neg (by omega)]
    omega

/-- A clock that reaches the target while the mark is still to be passed breaks the loop. -/
theorem exists_breaksAt (hc : Monotone clock) (ht : l.targetDurationNs ≤ clock n - clock 0)
    (hp : ∃ m ≥ n, Tally.PassesAt (2 ^ 64) l.loopUnit l.chkpt m) : ∃ m, l.BreaksAt clock m := by
  obtain ⟨m, hm, hpass⟩ := hp
  have hle : clock n ≤ clock (m + 1) := hc (by omega)
  exact ⟨m, hpass, by omega⟩

/-- The loops end after the target if it is reached long before the counters wrap around. -/
theorem exists_run_past {kernel : Nat → σ → Run ε σ} (hc : Advancing clock)
    (hk : Returning kernel) (restart : σ → σ) (hpos : 0 < l.loopCount) (hunit : 0 < l.loopUnit)
    (ht : l.targetDurationNs ≤ clock n - clock 0) (hroom : (n + 2) * l.loopUnit + l.chkpt < 2 ^ 64)
    (cursor : σ) : ∃ fuel s, l.run clock kernel restart fuel cursor = .done s ∧
      s.finished = u64 (s.calls * l.loopUnit) ∧ l.targetDurationNs ≤ clock s.calls - clock 0 := by
  obtain ⟨fuel, s, hrun⟩ := (run_ends_iff hk).2
    ⟨hpos, exists_breaksAt hc.mono ht (Tally.exists_passes hunit hroom)⟩
  obtain ⟨-, m, hstop⟩ := run_stopped hrun
  refine ⟨fuel, s, hrun, ?_, ?_⟩
  · rw [hstop.finished, hstop.calls, Tally.after_count]
    rfl
  · rw [hstop.calls]
    exact hstop.breaks.2

/-- Every advancing clock breaks the loop exactly if it is passed for ever, or has no target. -/
theorem Sized.breaks_always (h : l.Sized) :
    (∀ clock, Advancing clock → ∃ n, l.BreaksAt clock n) ↔
      l.targetDurationNs = 0 ∨ l.loopUnit < Nat.gcd l.chkpt (2 ^ 64) := by
  have hunit := h.unit_le
  have hchkpt := h.chkpt
  have hforever : (∀ m, ∃ n ≥ m, Tally.PassesAt (2 ^ 64) l.loopUnit l.chkpt n) ↔
      l.loopUnit < Nat.gcd l.chkpt (2 ^ 64) :=
    Tally.passes_forever h.unit_dvd h.unit_pos (by omega) (by omega)
  constructor
  · intro hall
    by_contra hno
    rw [not_or] at hno
    have hstuck : ∃ m, ∀ n ≥ m, ¬ Tally.PassesAt (2 ^ 64) l.loopUnit l.chkpt n := by
      by_contra hc
      apply hno.2
      apply hforever.1
      intro m
      by_contra hm
      exact hc ⟨m, fun n hn hp => hm ⟨n, hn, hp⟩⟩
    obtain ⟨m, hm⟩ := hstuck
    obtain ⟨n, hpass, htarget⟩ := hall _ (lateClock_advancing m h.target)
    have hlt : n < m := by
      by_contra hge
      exact hm n (by omega) hpass
    have hpos := h.target
    simp only [lateClock, if_pos (show n + 1 ≤ m by omega), if_pos (Nat.zero_le m)] at htarget
    exact hno.1 (by omega)
  · rintro (h0 | hgcd) clock hc
    · apply exists_breaksAt (n := 0) hc.mono (by omega)
      exact Tally.exists_passes h.unit_pos (by omega)
    · obtain ⟨n, hn⟩ := hc.unbounded (clock 0 + l.targetDurationNs)
      exact exists_breaksAt hc.mono (n := n) (by omega) (hforever.2 hgcd n)

end MeasureLoop

theorem memRegionAllocLat_region {pkt : MemLatBwThreadPacket}
    (h : memRegionAllocLat rand fuel pkt = .done (r, m)) :
    0 < pkt.strideSizeB.toNat ∧ r.activeSize = (pkt.regionSizeKb * 1024).toNat ∧
      r.lineSize = pkt.strideSizeB.toNat := by
  obtain ⟨r', hnew, h⟩ := Run.bind_eq_done.1 h
  obtain ⟨m', -, h⟩ := Run.bind_eq_done.1 h
  cases h
  rw [MemRegion.new_eq] at hnew
  split at hnew
  · cases hnew
  · next hne =>
    cases hnew
    rw [not_or] at hne
    exact ⟨Nat.pos_of_ne_zero hne.2, rfl, rfl⟩

theorem memRegionAllocBw_region {pkt : MemLatBwThreadPacket} (h : memRegionAllocBw pkt = .done r) :
    r.activeSize = (pkt.regionSizeKb * 1024).toNat := by
  rw [memRegionAllocBw, MemRegion.new_eq, if_neg (by decide)] at h
  cases h
  rfl

theorem memRegionAllocMemcpy_region {pkt : MemLatBwThreadPacket}
    (h : memRegionAllocMemcpy pkt = .done (dst, src)) :
    dst.activeSize = (pkt.regionSizeKb * 1024).toNat ∧
      src.activeSize = (pkt.regionSizeKb * 1024).toNat := by
  rw [memRegionAllocMemcpy, MemRegion.new_eq, if_neg (by decide)] at h
  cases h
  exact ⟨rfl, rfl⟩

/-- A measurement routine with the packet and the region of the worker that runs it. -/
inductive Routine where
  | latPtr (pkt : MemLatBwThreadPacket) (r : MemRegion)
  | bwSequential (pkt : MemLatBwThreadPacket) (r : MemRegion)
  | copyFragment (pkt : MemLatBwThreadPacket) (r : MemRegion)

namespace Routine

def pkt : Routine → MemLatBwThreadPacket
  | .latPtr pkt _ => pkt
  | .bwSequential pkt _ => pkt
  | .copyFragment pkt _ => pkt

def loop : Routine → Run Fault MeasureLoop
  | .latPtr pkt r => latLoop pkt r
  | .bwSequential pkt r => bwLoop pkt r
  | .copyFragment pkt r => memcpyLoop pkt r

/-- The routine returns, whatever the kernel does that it calls. -/
def Ends (clock : Nat → Int) : Routine → Prop
  | .latPtr pkt r => ∀ (σ : Type) (kernelLat : σ → Run Fault σ) (start : σ),
    (∀ c, ∃ c', kernelLat c = .done c') →
      ∃ fuel s, MmMem.latPtr kernelLat start clock fuel pkt r = .done s
  | .bwSequential pkt r => ∀ (σ : Type) (kernelBw : σ → Run Fault σ) (start : σ),
    (∀ c, ∃ c', kernelBw c = .done c') →
      ∃ fuel s, MmMem.bwSequential kernelBw start clock fuel pkt r = .done s
  | .copyFragment pkt r => ∀ (σ : Type) (kernelMemcpy : Nat → Nat → Nat → σ → Run Fault σ)
    (cursor : σ), (∀ dst src count c, ∃ c', kernelMemcpy dst src count c = .done c') →
      ∃ fuel s, MmMem.copyFragment kernelMemcpy clock fuel pkt r cursor = .done s

/-- The region is large enough for one call of the kernel. -/
def Covered : Routine → Prop
  | .latPtr pkt _ => 256 * pkt.strideSizeB.toNat ≤ (pkt.regionSizeKb * 1024).toNat
  | .bwSequential pkt _ => 256 * 32 ≤ (pkt.regionSizeKb * 1024).toNat
  | .copyFragment _ _ => True

/-- The checkpoints go on when the counters wrap around. -/
def Unstuck (w : Routine) : Prop :=
  ∀ l, w.loop = .done l → l.loopUnit < Nat.gcd l.chkpt (2 ^ 64)

theorem ends_iff {w : Routine} {clock : Nat → Int} (hl : w.loop = .done l) :
    w.Ends clock ↔ 0 < l.loopCount ∧ ∃ n, l.BreaksAt clock n := by
  cases w with
  | latPtr pkt r =>
    replace hl : latLoop pkt r = .done l := hl
    simp only [Ends, MmMem.latPtr, hl, Run.done_bind]
    constructor
    · intro h
      exact (MeasureLoop.run_ends_iff fun _ c => ⟨c, rfl⟩).1 (h Unit .done () fun c => ⟨c, rfl⟩)
    · intro h σ kernel start hk
      exact (MeasureLoop.run_ends_iff fun _ => hk).2 h
  | bwSequential pkt r =>
    replace hl : bwLoop pkt r = .done l := hl
    simp only [Ends, MmMem.bwSequential, hl, Run.done_bind]
    constructor
    · intro h
      exact (MeasureLoop.run_ends_iff fun _ c => ⟨c, rfl⟩).1 (h Unit .done () fun c => ⟨c, rfl⟩)
    · intro h σ kernel start hk
      exact (MeasureLoop.run_ends_iff fun _ => hk).2 h
  | copyFragment pkt r =>
    replace hl : memcpyLoop pkt r = .done l := hl
    simp only [Ends, MmMem.copyFragment, hl, Run.done_bind]
    constructor
    · intro h
      exact (MeasureLoop.run_ends_iff fun _ c => ⟨c, rfl⟩).1
        (h Unit (fun _ _ _ => .done) () fun _ _ _ c => ⟨c, rfl⟩)
    · intro h σ kernel cursor hk
      exact (MeasureLoop.run_ends_iff fun i => hk _ _ _).2 h

end Routine

/-- The measurement loops the programs start, the region of the worker allocated and initialised. -/
inductive Started (numa : NumaConfig) (argv : List Text) : Routine → Prop where
  | idleLatency (hparse : Configuration.parseOptions .latency numa argv = .done (.ok config))
    (hpkt : pkt = prepareMemLatBwThreadPacket config node numThreads threadId)
    (hthread : threadId < numThreads)
    (halloc : memRegionAllocLat rand fuel pkt = .done (r, m)) (lastLatPs : UInt32) :
    Started numa argv (.latPtr (pkt.forIdleLatency config lastLatPs) r)
  | loadedLatency
    (hparse : Configuration.parseOptions .latencyBandwidth numa argv = .done (.ok config))
    (hpkt : pkt = prepareMemLatBwThreadPacket config (-1) config.numThreads 0)
    (hthread : 0 < config.numThreads)
    (halloc : memRegionAllocLat rand fuel pkt = .done (r, m)) (lastLatPs lastBwGbps : UInt32) :
    Started numa argv (.latPtr
      (pkt.forLoadedLatency config (.ofNat numa.numCpus) lastLatPs lastBwGbps) r)
  | loadedBandwidth
    (hparse : Configuration.parseOptions .latencyBandwidth numa argv = .done (.ok config))
    (hpkt : pkt = prepareMemLatBwThreadPacket config (-1) config.numThreads threadId)
    (hthread : threadId < config.numThreads) (hlater : 0 < threadId)
    (halloc : memRegionAllocBw pkt = .done r) (lastLatPs lastBwGbps : UInt32) :
    Started numa argv (.bwSequential
      (pkt.forLoadedLatency config (.ofNat numa.numCpus) lastLatPs lastBwGbps) r)
  | peakBandwidth (hparse : Configuration.parseOptions .bandwidth numa argv = .done (.ok parsed))
    (hconfig : config = parsed.correctReadWriteMix)
    (hpkt : pkt = prepareMemLatBwThreadPacket config node numThreads threadId)
    (hthread : threadId < numThreads)
    (halloc : memRegionAllocBw pkt = .done r) (readWriteMix lastBwGbps : UInt32) :
    Started numa argv (.bwSequential
      (pkt.forPeakBandwidth config (.ofNat numa.numCpus) readWriteMix lastBwGbps) r)
  | memcpy (hparse : Configuration.parseOptions .memcpy numa argv = .done (.ok parsed))
    (hcheck : parsed.checkFragment = .ok config)
    (hpkt : pkt = prepareMemLatBwThreadPacket config (-1) config.numThreads threadId)
    (hthread : threadId < config.numThreads)
    (halloc : memRegionAllocMemcpy pkt = .done (dst, src)) (lastExecTimeNs : UInt64) :
    Started numa argv (.copyFragment (pkt.forMemcpy config lastExecTimeNs) dst)

theorem Configuration.checkFragment_fits {parsed config : Configuration}
    (h : parsed.checkFragment = .ok config) :
    0 < config.fragmentSizeB.toNat ∧
      config.fragmentSizeB.toNat ≤ (config.regionSizeKb * 1024).toNat := by
  simp only [Configuration.checkFragment] at h
  generalize (if parsed.fragmentSizeB = 0 then parsed.regionSizeKb * 1024
    else parsed.fragmentSizeB) = fragmentSizeB at h
  split at h
  · cases h
  · next hok =>
    cases h
    rw [not_or] at hok
    refine ⟨Nat.pos_of_ne_zero fun h0 => hok.1 (UInt64.toNat_inj.1 h0), ?_⟩
    exact UInt64.le_iff_toNat_le.1 (UInt64.not_lt.1 hok.2)

theorem div_pos_iff_le (h : 0 < b) : 0 < a / b ↔ b ≤ a :=
  Nat.div_pos_iff.trans ⟨And.right, .intro h⟩

theorem latPtr_loop {pkt pkt' : MemLatBwThreadPacket}
    (halloc : memRegionAllocLat rand fuel pkt = .done (r, m))
    (hregion : pkt'.regionSizeKb = pkt.regionSizeKb)
    (hstride : pkt'.strideSizeB = pkt.strideSizeB) :
    ∃ l, (Routine.latPtr pkt' r).loop = .done l ∧ l.Sized ∧
      l.targetDurationNs = pkt'.targetDurationNs ∧
      (0 < l.loopCount ↔ (Routine.latPtr pkt' r).Covered) := by
  obtain ⟨hpos, hactive, hline⟩ := memRegionAllocLat_region halloc
  obtain ⟨l, hl, hs, ht, hcount⟩ := latLoop_spec pkt' (hline ▸ hpos)
    (hline ▸ UInt32.toNat_lt _)
  refine ⟨l, hl, hs, ht, ?_⟩
  rw [hcount, hactive, hline, div_pos_iff_le (by omega), Routine.Covered, hregion, hstride]

theorem bwSequential_loop {pkt pkt' : MemLatBwThreadPacket}
    (halloc : memRegionAllocBw pkt = .done r)
    (hthread : threadId < pkt'.numThreads) (hregion : pkt'.regionSizeKb = pkt.regionSizeKb) :
    ∃ l, (Routine.bwSequential pkt' r).loop = .done l ∧ l.Sized ∧
      l.targetDurationNs = pkt'.targetDurationNs ∧
      (0 < l.loopCount ↔ (Routine.bwSequential pkt' r).Covered) := by
  have hpos : 0 < pkt'.numThreads.toNat :=
    Nat.lt_of_le_of_lt (Nat.zero_le _) (UInt32.lt_iff_toNat_lt.1 hthread)
  obtain ⟨l, hl, hs, ht, hcount⟩ := bwLoop_spec r hpos
  refine ⟨l, hl, hs, ht, ?_⟩
  rw [hcount, memRegionAllocBw_region halloc, div_pos_iff_le (by decide), Routine.Covered, hregion]

/-- What a started routine sets its loops up with, and when its passes call the kernel. -/
theorem Started.loop (h : Started numa argv w) : ∃ l, w.loop = .done l ∧ l.Sized ∧
    l.targetDurationNs = w.pkt.targetDurationNs ∧ (0 < l.loopCount ↔ w.Covered) := by
  cases h with
  | idleLatency hparse hpkt hthread halloc lastLatPs => exact latPtr_loop halloc rfl rfl
  | loadedLatency hparse hpkt hthread halloc lastLatPs lastBwGbps =>
    exact latPtr_loop halloc rfl rfl
  | loadedBandwidth hparse hpkt hthread hlater halloc lastLatPs lastBwGbps =>
    subst hpkt
    exact bwSequential_loop halloc hthread rfl
  | peakBandwidth hparse hconfig hpkt hthread halloc readWriteMix lastBwGbps =>
    subst hpkt
    exact bwSequential_loop halloc hthread rfl
  | @memcpy parsed config pkt threadId dst src hparse hcheck hpkt hthread halloc lastExecTimeNs =>
    obtain ⟨hpos, hle⟩ := Configuration.checkFragment_fits hcheck
    obtain ⟨l, hl, hs, ht, hcount⟩ := memcpyLoop_spec (pkt.forMemcpy config lastExecTimeNs) dst
      hpos
    refine ⟨l, hl, hs, ht, ?_⟩
    subst hpkt
    rw [hcount, (memRegionAllocMemcpy_region halloc).1]
    exact ⟨fun _ => trivial, fun _ => (div_pos_iff_le hpos).2 hle⟩

/-- The loops of a measurement end under every advancing clock exactly if the region holds one
call of the kernel and the checkpoints outlive the wrap-around of the counters, which no clock
that reaches the target before the wrap-around needs. -/
theorem measurement_loops_end (numa : NumaConfig) (argv : List Text) (w : Routine)
    (h : Started numa argv w) :
    ((∀ clock, Advancing clock → w.Ends clock) ↔
      w.Covered ∧ (w.pkt.targetDuration = 0 ∨ w.Unstuck)) ∧
    ∀ clock l n, Advancing clock → w.loop = .done l → (n + 2) * l.loopUnit + l.chkpt < 2 ^ 64 →
      w.pkt.targetDurationNs ≤ clock n - clock 0 → (w.Ends clock ↔ w.Covered) := by
  obtain ⟨l, hl, hs, ht, hcount⟩ := h.loop
  constructor
  · have hzero : l.targetDurationNs = 0 ↔ w.pkt.targetDuration = 0 := by
      rw [ht, MemLatBwThreadPacket.targetDurationNs, ← UInt32.toNat_inj, UInt32.toNat_zero]
      omega
    have hunstuck : w.Unstuck ↔ l.loopUnit < Nat.gcd l.chkpt (2 ^ 64) := by
      constructor
      · exact fun hu => hu l hl
      · intro hlt l' hl'
        rw [hl] at hl'
        cases hl'
        exact hlt
    rw [← hcount, ← hzero, hunstuck, ← hs.breaks_always]
    constructor
    · intro hall
      have hends := (Routine.ends_iff hl).1
        (hall _ (MeasureLoop.lateClock_advancing 0 (Int.le_refl 0)))
      exact ⟨hends.1, fun clock hc => ((Routine.ends_iff hl).1 (hall clock hc)).2⟩
    · rintro ⟨hpos, hbreaks⟩ clock hc
      exact (Routine.ends_iff hl).2 ⟨hpos, hbreaks clock hc⟩
  · intro clock l' n hc hl' hn hreach
    rw [hl] at hl'
    cases hl'
    rw [Routine.ends_iff hl, ← hcount, and_iff_left_iff_imp]
    intro _
    exact MeasureLoop.exists_breaksAt hc.mono (ht ▸ hreach) (Tally.exists_passes hs.unit_pos hn)

/-- A region of two calls of the kernel: the warm-up ends. -/
theorem measurement_loops_end_warmup :
    let numa := NumaConfig.new ⟨0, 1, 1, fun _ => true, fun _ => 2 ^ 34, fun _ => some fun _ => true⟩
    ∃ w, Started numa ["cpu_idle_latency".toList, "-b64".toList, "-c4".toList] w ∧
      ∀ clock, Advancing clock → w.Ends clock := by
  intro numa
  let config := { Configuration.byDefault .latency numa with regionSizeKb := 64, chunkSizeKb := 4 }
  have hparse : Configuration.parseOptions .latency numa
      ["cpu_idle_latency".toList, "-b64".toList, "-c4".toList] = .done (.ok config) := by
    decide +kernel
  obtain ⟨⟨r, m⟩, halloc⟩ := Run.exists_done (x := memRegionAllocLat (fun _ => 0) 33
    (prepareMemLatBwThreadPacket config (-1) 1 0)) (by decide +kernel)
  have hstart := Started.idleLatency hparse rfl (show (0 : UInt32) < 1 by decide) halloc 0
  have hcovered : 256 * config.strideSizeB.toNat ≤ (config.regionSizeKb * 1024).toNat := by
    decide +kernel
  refine ⟨_, hstart, (measurement_loops_end _ _ _ hstart).1.2 ⟨hcovered, .inr fun l hl => ?_⟩⟩
  have hactive : r.activeSize = 64 * 1024 :=
    (memRegionAllocLat_region halloc).2.1.trans (by decide +kernel)
  obtain ⟨loopCount, -, hl⟩ := Run.bind_eq_done.1 hl
  obtain ⟨chkpt, hchkpt, hl⟩ := Run.bind_eq_done.1 hl
  have hfirst :
      ¬ ((prepareMemLatBwThreadPacket config (-1) 1 0).forIdleLatency config 0).refLatencyPs > 0 :=
    show ¬ (0 : UInt32) > 0 by decide
  rw [latChkptChases, if_neg hfirst, hactive, if_neg (by decide),
    if_neg (by decide), if_pos (by decide), divide_eq (by decide)] at hchkpt
  cases hchkpt
  cases hl
  exact show 256 < Nat.gcd (4 <<< 20 / 8) (2 ^ 64) by decide

/-- A region smaller than one call of the kernel: the loops spin without calling it. -/
theorem measurement_loop_spins :
    let numa := NumaConfig.new ⟨0, 1, 1, fun _ => true, fun _ => 2 ^ 34, fun _ => some fun _ => true⟩
    ∃ w, Started numa ["cpu_idle_latency".toList, "-b16".toList, "-c4".toList] w ∧
      ∀ clock, ¬ w.Ends clock := by
  intro numa
  let config := { Configuration.byDefault .latency numa with regionSizeKb := 16, chunkSizeKb := 4 }
  have hparse : Configuration.parseOptions .latency numa
      ["cpu_idle_latency".toList, "-b16".toList, "-c4".toList] = .done (.ok config) := by
    decide +kernel
  obtain ⟨⟨r, m⟩, halloc⟩ := Run.exists_done (x := memRegionAllocLat (fun _ => 0) 33
    (prepareMemLatBwThreadPacket config (-1) 1 0)) (by decide +kernel)
  have hstart := Started.idleLatency hparse rfl (show (0 : UInt32) < 1 by decide) halloc 0
  obtain ⟨l, hl, -, -, hcount⟩ := hstart.loop
  refine ⟨_, hstart, fun clock hends => ?_⟩
  have hsmall : ¬ 256 * config.strideSizeB.toNat ≤ (config.regionSizeKb * 1024).toNat := by
    decide +kernel
  exact hsmall (hcount.1 ((Routine.ends_iff hl).1 hends).1)

end MmMem

import MmMem.KernelSweeps
import MmMem.MemRegionLayout

namespace MmMem
open Prog
set_option autoImplicit true

def KernelState.start (words : Nat → UInt64) : KernelState where
  ret := 0
  p := 0
  words
  accesses := []
  nops := 0

/-- `bw_sequential` with a kernel made of statements. -/
def bwSweeping (c : Code) (clock : Nat → Int) (fuel : Nat) (pkt : MemLatBwThreadPacket)
    (r : MemRegion) (s : KernelState) : Run Fault (LoopState KernelState) := do
  let l ← bwLoop pkt r
  l.run clock (fun _ => runCode r c) (fun s => { s with p := 0 }) fuel s

variable {r : MemRegion} {c : Code} {accesses : List Access}

/-- The pointer of `bw_sequential`, with nothing else of what the kernel does. -/
theorem bwSweeping_bwSequential (h : Sweeps 256 c) (clock : Nat → Int) (fuel : Nat)
    (pkt : MemLatBwThreadPacket) (words : Nat → UInt64) :
    (bwSweeping c clock fuel pkt r (.start words) >>= fun t => .done (t.map KernelState.p)) =
      bwSequential (kernelBw r) 0 clock fuel pkt r := by
  rw [bwSweeping, bwSequential, Run.bind_assoc]
  apply Run.bind_congr rfl
  intro l
  exact MeasureLoop.run_map (fun _ => h.kernelBw r) (fun _ => rfl) (KernelState.start words)

/-- The calls of the kernel in a pass, and the slots of 32 bytes they go through. -/
def MemRegion.passCalls (r : MemRegion) : Nat := r.activeSize / 8192

def MemRegion.passSlots (r : MemRegion) : Nat := 256 * r.passCalls

/-- The offset of the `j`-th access. -/
def MemRegion.slot (r : MemRegion) (j : Nat) : Nat := 32 * (j % r.passSlots)

theorem MemRegion.passSlots_le (r : MemRegion) : 32 * r.passSlots ≤ r.activeSize := by
  have hle : r.activeSize / 8192 * 8192 ≤ r.activeSize := Nat.div_mul_le_self _ _
  rw [MemRegion.passSlots, MemRegion.passCalls]
  omega

/-- The accesses of some calls: every complete pass comes by the slots in their order. -/
structure MemRegion.Swept (r : MemRegion) (calls : Nat) (accesses : List Access) : Prop where
  length : accesses.length = 256 * calls
  inside : ∀ a ∈ accesses, a.offset + 8 ≤ r.activeSize
  passes : ∀ q, (q + 1) * r.passCalls ≤ calls →
    ((accesses.drop (q * r.passSlots)).take r.passSlots).map Access.offset =
      (List.range r.passSlots).map (32 * ·)

theorem MemRegion.Swept.of_slots (hpos : 0 < r.passSlots)
    (h : accesses.map Access.offset = (List.range (256 * n)).map r.slot) : r.Swept n accesses where
  length := by
    have hlen := congrArg List.length h
    rwa [List.length_map, List.length_map, List.length_range] at hlen
  inside a ha := by
    have hmem := List.mem_map_of_mem (f := Access.offset) ha
    rw [h] at hmem
    obtain ⟨j, -, hj⟩ := List.mem_map.1 hmem
    have hlt : j % r.passSlots < r.passSlots := Nat.mod_lt _ hpos
    have hle := r.passSlots_le
    rw [← hj, MemRegion.slot]
    omega
  passes q hq := by
    have hbound : (q + 1) * r.passSlots ≤ 256 * n := by
      rw [MemRegion.passSlots, Nat.mul_left_comm]
      exact Nat.mul_le_mul_left _ hq
    rw [Nat.succ_mul] at hbound
    rw [List.map_take, List.map_drop, h]
    apply List.ext_getElem
    · simp only [List.length_take, List.length_drop, List.length_map, List.length_range]
      omega
    · intro j hj hj'
      rw [List.length_map, List.length_range] at hj'
      simp only [List.getElem_take, List.getElem_drop, List.getElem_map, List.getElem_range,
        MemRegion.slot]
      rw [Nat.mul_comm q, Nat.mul_add_mod, Nat.mod_eq_of_lt hj']

/-- The state of the kernel after `n` calls, `i` of them in the pass it is in. -/
structure MemRegion.SweptTo (r : MemRegion) (n i : Nat) (s : KernelState) : Prop where
  pass : ∃ q, n = q * r.passCalls + i
  p : s.p = 8192 * i
  slots : s.accesses.map Access.offset = (List.range (256 * n)).map r.slot

theorem MemRegion.SweptTo.restart (h : r.SweptTo n r.passCalls s) :
    r.SweptTo n 0 { s with p := 0 } where
  pass := by
    obtain ⟨q, hq⟩ := h.pass
    exact ⟨q + 1, by rw [hq, Nat.succ_mul, Nat.add_zero]⟩
  p := rfl
  slots := h.slots

theorem MemRegion.SweptTo.call (h : r.SweptTo n i s) (hc : Sweeps 256 c) (hsize : r.size < 2 ^ 64)
    (hactive : r.activeSize ≤ r.size) (hi : i < r.passCalls) :
    ∃ s', runCode r c s = .done s' ∧ r.SweptTo (n + 1) (i + 1) s' := by
  have hle := r.passSlots_le
  have hslots : r.passSlots = 256 * r.passCalls := rfl
  obtain ⟨q, hq⟩ := h.pass
  obtain ⟨s', hs', hp, haccesses⟩ := hc.call hsize s (by rw [h.p]; omega)
  refine ⟨s', hs', ⟨q, by omega⟩, by rw [hp, h.p]; omega, ?_⟩
  rw [haccesses, h.slots, Nat.mul_succ, List.range_add, List.map_append, List.map_map, h.p]
  congr 1
  apply List.map_congr_left
  intro j hj
  have hlt : j < 256 := List.mem_range.1 hj
  have hindex : 256 * n + j = r.passSlots * q + (256 * i + j) := by
    rw [hq, hslots, Nat.mul_add, Nat.mul_comm q, Nat.mul_assoc, Nat.add_assoc]
  rw [Function.comp_apply, MemRegion.slot, hindex, Nat.mul_add_mod, Nat.mod_eq_of_lt (by omega)]
  omega

/-- The bandwidth kernels sweep the region: a call of any listed kernel advances by the bytes it is
credited for, a pass comes by every slot of the whole calls once and in order, and so does every
complete pass of a run, none of which leaves the region. -/
theorem bandwidth_kernels_sweep (mix : UInt32) (c : Code) (r : MemRegion)
    (pkt : MemLatBwThreadPacket) (hc : Listed mix c) (hsize : r.size < 2 ^ 64)
    (hactive : r.activeSize ≤ r.size) (hlarge : 8192 ≤ r.activeSize)
    (hthread : pkt.threadId < pkt.numThreads) :
    ∃ l, bwLoop pkt r = .done l ∧ l.loopCount = r.passCalls ∧ 0 < l.loopCount ∧
      (∀ s : KernelState, s.p + 8192 ≤ r.size →
        ∃ s', runCode r c s = .done s' ∧ s'.p = s.p + l.loopUnit) ∧
      (∀ s : KernelState,
        ∃ s', Run.loop (fun _ => runCode r c) l.loopCount 0 { s with p := 0 } = .done s' ∧
          s'.accesses.map Access.offset =
            s.accesses.map Access.offset ++ (List.range r.passSlots).map (32 * ·)) ∧
      ∀ clock fuel words, Run.Safe (fun t => r.Swept t.calls t.cursor.accesses)
        (bwSweeping c clock fuel pkt r (.start words)) := by
  have hpos : 0 < r.passCalls := Nat.div_pos hlarge (by decide)
  have hslots : 32 * r.passSlots ≤ r.size := Nat.le_trans r.passSlots_le hactive
  have hthreads : 0 < pkt.numThreads.toNat :=
    Nat.lt_of_le_of_lt (Nat.zero_le _) (UInt32.lt_iff_toNat_lt.1 hthread)
  obtain ⟨l, hl, -, -, hcount⟩ := bwLoop_spec r hthreads
  have hunit : l.loopUnit = 8192 := by
    obtain ⟨mbps, -, hl⟩ := Run.bind_eq_done.1 hl
    obtain ⟨chkpt, -, hl⟩ := Run.bind_eq_done.1 hl
    cases hl
    rfl
  refine ⟨l, hl, hcount, hcount ▸ hpos, fun s hs => ?_, fun s => ?_, fun clock fuel words => ?_⟩
  · obtain ⟨s', hs', hp, -⟩ := hc.sweeps.call hsize s hs
    exact ⟨s', hs', by rw [hp, hunit]⟩
  · -- a pass is one call of the code repeated
    have hpass : Sweeps (l.loopCount * 256) (List.replicate l.loopCount c).flatten :=
      hc.sweeps.repeats (k := l.loopCount) (f := fun c => (List.replicate l.loopCount c).flatten)
        fun _ => rfl
    have hcalls : l.loopCount * 256 = r.passSlots := by
      rw [hcount, Nat.mul_comm]
      rfl
    rw [hcalls] at hpass
    have hfits : ({ s with p := 0 } : KernelState).p + 32 * r.passSlots ≤ r.size := by
      rwa [Nat.zero_add]
    obtain ⟨s', hs', -, haccesses⟩ := hpass.call hsize { s with p := 0 } hfits
    refine ⟨s', (runCode_calls r c l.loopCount _).trans hs', haccesses.trans ?_⟩
    simp only [Nat.zero_add]
  · rw [bwSweeping, hl, Run.done_bind]
    apply (MeasureLoop.run_invariant (J := r.SweptTo) ⟨⟨0, by omega⟩, rfl, rfl⟩
      (fun n s hs => ?_) (fun n i hi s hs => ?_)).mono
    · rintro t ⟨i, -, ht⟩
      exact .of_slots (Nat.mul_pos (by decide) hpos) ht.slots
    · rw [hcount] at hs
      exact hs.restart
    · rw [hcount] at hi
      obtain ⟨s', hs', ht⟩ := hs.call hc.sweeps hsize hactive hi
      rw [hs']
      exact .done ht

/-- A region of two calls, and a kernel that is delayed by 1024 nops an access. -/
theorem bandwidth_kernels_sweep_small :
    let r := MemRegion.layout 16384 16384 4096 64 0 0
    let numa := NumaConfig.new ⟨0, 1, 1, fun _ => true, fun _ => 2 ^ 34, fun _ => some fun _ => true⟩
    let pkt := (prepareMemLatBwThreadPacket (.byDefault .bandwidth numa) (-1) 2 1).forPeakBandwidth
      (.byDefault .bandwidth numa) 1 0 0
    (∀ s : KernelState, ∃ s', Run.loop (fun _ => runCode r kR1w0SN1024) 2 0 { s with p := 0 } =
      .done s' ∧ s'.accesses.map Access.offset =
        s.accesses.map Access.offset ++ (List.range 512).map (32 * ·)) ∧
    ∀ clock fuel words, Run.Safe (fun t => r.Swept t.calls t.cursor.accesses)
      (bwSweeping kR1w0SN1024 clock fuel pkt r (.start words)) := by
  intro r numa pkt
  have hlisted : Listed 0 kR1w0SN1024 := by
    refine .inr ⟨1024, ?_⟩
    rw [getKernelsWithDelays_eq (by decide)]
    exact List.mem_map.2 ⟨(1024, mn1024), by decide +kernel, rfl⟩
  obtain ⟨l, -, hcount, -, -, hpass, hrun⟩ := bandwidth_kernels_sweep 0 kR1w0SN1024 r pkt hlisted
    (by decide) (by decide) (by decide) (by decide +kernel)
  have hcalls : r.passCalls = 2 := by decide
  have hslots : r.passSlots = 512 := by decide
  rw [hcount, hcalls, hslots] at hpass
  exact ⟨hpass, hrun⟩

end MmMem

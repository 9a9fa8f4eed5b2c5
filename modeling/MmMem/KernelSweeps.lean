import MmMem.BandwidthKernels
import MmMem.LatencyDrivers
import MmMem.WorkerLoops

namespace MmMem
open Prog
set_option autoImplicit true

inductive Access where
  | read (offset : Nat)
  | write (offset : Nat)
  deriving Repr, DecidableEq

def Access.offset : Access → Nat
  | .read o => o
  | .write o => o

/-- The variables of a kernel, the words of its region, and what it has done so far. -/
structure KernelState where
  ret : UInt64
  /-- the offset of `p` in the region -/
  p : Nat
  /-- the 8-byte words by their offsets -/
  words : Nat → UInt64
  accesses : List Access
  nops : Nat

def Statement.exec (r : MemRegion) (s : KernelState) : Statement → Run Fault KernelState
  | .addWord => do
    let _ ← r.loadWord s.p
    return { s with ret := s.ret + s.words s.p, accesses := s.accesses ++ [.read s.p] }
  | .storeWord =>
    if s.p + 8 ≤ r.size then
      .done { s with
        words := fun o => if o = s.p then s.ret else s.words o
        accesses := s.accesses ++ [.write s.p] }
    else .fault (.outsideRegion s.p)
  | .advance => .done { s with p := u64 (s.p + 32) }
  | .nop => .done { s with nops := s.nops + 1 }

def runCode (r : MemRegion) : Code → KernelState → Run Fault KernelState
  | [], s => .done s
  | x :: c, s => x.exec r s >>= runCode r c

theorem runCode_append (r : MemRegion) (a b : Code) (s : KernelState) :
    runCode r (a ++ b) s = runCode r a s >>= runCode r b := by
  induction a generalizing s with
  | nil => rfl
  | cons x a ih =>
    change x.exec r s >>= runCode r (a ++ b) = x.exec r s >>= runCode r a >>= runCode r b
    rw [Run.bind_assoc, Run.bind_congr rfl ih]

theorem runCode_calls (r : MemRegion) (c : Code) (n : Nat) (s : KernelState) :
    Run.loop (fun _ => runCode r c) n 0 s = runCode r (List.replicate n c).flatten s := by
  induction n generalizing s with
  | zero => rfl
  | succ n ih =>
    rw [List.replicate_succ, List.flatten_cons, runCode_append]
    apply Run.bind_congr rfl
    intro t
    rw [← ih]
    exact Run.loop_congr (g := fun _ => runCode r c) (fun _ _ _ => rfl) _

/-- Where a kernel is in its region, and where it has been. -/
def KernelState.place (s : KernelState) : Nat × List Nat := (s.p, s.accesses.map Access.offset)

/-- One access of 8 bytes, and the step to the next slot of 32. -/
def accessSlot (r : MemRegion) (t : Nat × List Nat) : Run Fault (Nat × List Nat) := do
  let _ ← r.loadWord t.1
  return (u64 (t.1 + 32), t.2 ++ [t.1])

/-- The code makes `n` accesses, 32 bytes apart, and ends 32 bytes behind the last. -/
def Sweeps (n : Nat) (c : Code) : Prop :=
  ∀ r s, (runCode r c s >>= fun s => .done s.place) = Run.loop (fun _ => accessSlot r) n 0 s.place

namespace Sweeps

theorem append (ha : Sweeps m a) (hb : Sweeps n b) : Sweeps (m + n) (a ++ b) := by
  intro r s
  rw [runCode_append, Run.loop_add, ← ha, Run.bind_assoc, Run.bind_assoc]
  apply Run.bind_congr rfl
  intro t
  rw [Run.done_bind, hb]
  exact Run.loop_congr (g := fun _ => accessSlot r) (fun _ _ _ => rfl) _

theorem rd32 : Sweeps 1 rd32 := by
  intro r s
  change (r.loadWord s.p >>= _) >>= _ >>= _ = (r.loadWord s.p >>= _) >>= _
  simp only [Run.bind_assoc]
  apply Run.bind_congr rfl
  intro _
  simp only [Run.pure_eq, Run.done_bind, Run.loop, runCode, Statement.exec, KernelState.place,
    List.map_append, List.map_cons, List.map_nil, Access.offset]

theorem wr32 : Sweeps 1 wr32 := by
  intro r s
  have hload : r.loadWord s.p = if s.p + 8 ≤ r.size then .done () else .fault (.outsideRegion s.p) :=
    rfl
  simp only [MmMem.wr32, runCode, Statement.exec, Run.loop, accessSlot, KernelState.place, hload]
  split
  · simp only [Run.pure_eq, Run.done_bind, List.map_append, List.map_cons, List.map_nil,
      Access.offset]
  · rfl

theorem nops (n : Nat) : Sweeps 0 (.replicate n .nop) := by
  induction n with
  | zero => exact fun r s => rfl
  | succ n ih => exact fun r s => ih r { s with nops := s.nops + 1 }

end Sweeps

/-- A macro that repeats its argument `n` times. -/
def Repeats (n : Nat) (f : Code → Code) : Prop := ∀ c, f c = (List.replicate n c).flatten

namespace Repeats

theorem add (hf : Repeats m f) (hg : Repeats n g) : Repeats (m + n) fun c => f c ++ g c := by
  intro c
  change f c ++ g c = _
  rw [hf, hg, ← List.flatten_append, List.replicate_append_replicate]

theorem lp1 : Repeats 1 lp1 := fun c => (List.append_nil c).symm

theorem lp2 : Repeats 2 lp2 := lp1.add lp1

theorem lp3 : Repeats 3 lp3 := lp2.add lp1

theorem lp4 : Repeats 4 lp4 := lp2.add lp2

theorem lp5 : Repeats 5 lp5 := lp3.add lp2

theorem lp8 : Repeats 8 lp8 := lp4.add lp4

theorem lp16 : Repeats 16 lp16 := lp8.add lp8

theorem lp32 : Repeats 32 lp32 := lp16.add lp16

theorem lp42 : Repeats 42 lp42 := (lp32.add lp8).add lp2

theorem lp64 : Repeats 64 lp64 := lp32.add lp32

theorem lp128 : Repeats 128 lp128 := lp64.add lp64

theorem lp256 : Repeats 256 lp256 := lp128.add lp128

end Repeats

theorem Sweeps.repeats (h : Sweeps n c) (hf : Repeats k f) : Sweeps (k * n) (f c) := by
  rw [hf]
  clear hf
  induction k with
  | zero =>
    rw [Nat.zero_mul]
    exact fun r s => rfl
  | succ k ih =>
    rw [Nat.succ_mul, Nat.add_comm, List.replicate_succ, List.flatten_cons]
    exact h.append ih

/-- The four patterns make 256 accesses, whatever delays them. -/
theorem Sweeps.kR1w0S (h : Sweeps 0 c) : Sweeps 256 (kR1w0S c) :=
  (rd32.append h).repeats .lp256

theorem Sweeps.kR1w1S (h : Sweeps 0 c) : Sweeps 256 (kR1w1S c) :=
  ((rd32.append wr32).append (h.repeats .lp4)).repeats .lp128

theorem Sweeps.kR2w1S (h : Sweeps 0 c) : Sweeps 256 (kR2w1S c) :=
  (((rd32.repeats .lp4).append ((rd32.append wr32).repeats .lp2)).append (h.repeats .lp3)).repeats
    .lp32

theorem Sweeps.kR3w1S (h : Sweeps 0 c) : Sweeps 256 (kR3w1S c) :=
  ((((((rd32.repeats .lp5).append wr32).append (h.repeats .lp8)).repeats .lp42).append
    (rd32.repeats .lp3)).append (wr32.repeats .lp1)).append (h.repeats .lp4)

theorem rwmixAndKernels_sweep (h : (m, c) ∈ rwmixAndKernels mix) : Sweeps 256 c := by
  have hr1w0 : Sweeps 256 kernelBwR1w0Sequential := Sweeps.rd32.repeats .lp256
  have hr1w1 : Sweeps 256 kernelBwR1w1Sequential :=
    (Sweeps.rd32.append .wr32).repeats .lp128
  have hr2w1 : Sweeps 256 kernelBwR2w1Sequential :=
    ((Sweeps.rd32.repeats .lp4).append ((Sweeps.rd32.append .wr32).repeats .lp2)).repeats .lp32
  have hr3w1 : Sweeps 256 kernelBwR3w1Sequential :=
    ((((Sweeps.rd32.repeats .lp5).append .wr32).repeats .lp42).append
      (Sweeps.rd32.repeats .lp3)).append (Sweeps.wr32.repeats .lp1)
  rw [rwmixAndKernels] at h
  split at h
  · cases List.mem_singleton.1 h
    exact hr1w0
  · split at h
    · cases List.mem_singleton.1 h
      exact hr1w1
    · split at h
      · cases List.mem_singleton.1 h
        exact hr2w1
      · split at h
        · cases List.mem_singleton.1 h
          exact hr3w1
        · split at h
          · simp only [List.mem_cons, List.not_mem_nil, or_false, Prod.mk.injEq] at h
            rcases h with ⟨-, rfl⟩ | ⟨-, rfl⟩ | ⟨-, rfl⟩ | ⟨-, rfl⟩
            · exact hr1w0
            · exact hr3w1
            · exact hr2w1
            · exact hr1w1
          · cases List.mem_singleton.1 h
            exact hr1w0

/-- The delays that a mix below 4 lists, with what its pattern repeats for them. -/
def delaySlots (readWriteMix : UInt32) : List (Int32 × Code) :=
  [(1, mn1), (8, mn8), (32, mn32), (48, mn48), (64, mn64), (80, mn80), (88, mn88), (96, mn96),
   (104, mn104), (112, mn112), (128, mn128), (160, mn160), (192, mn192), (224, mn224),
   (256, mn256)] ++
  (if readWriteMix = 2 then
    [(320, mn320), (384, mn384), (448, mn448), (512, mn512), (640, mn640), (768, mn768)]
   else [(384, mn384), (512, mn512), (768, mn768)]) ++
  [(1024, mn1024), (1536, mn1536), (2048, mn2048)]

def delayKernel (readWriteMix : UInt32) (nops : Code) : Code :=
  if readWriteMix = 0 then kR1w0S nops
  else if readWriteMix = 1 then kR1w1S nops
  else if readWriteMix = 2 then kR2w1S nops
  else kR3w1S nops

/-- The item that is listed for a slot. -/
def delayItem (readWriteMix : UInt32) (slot : Int32 × Code) : Int32 × Code :=
  (slot.1, delayKernel readWriteMix slot.2)

theorem mix_cases {mix : UInt32} (h : mix ≤ 3) : mix = 0 ∨ mix = 1 ∨ mix = 2 ∨ mix = 3 := by
  have hle : mix.toNat ≤ 3 := UInt32.le_iff_toNat_le.1 h
  have hcases : mix.toNat = 0 ∨ mix.toNat = 1 ∨ mix.toNat = 2 ∨ mix.toNat = 3 := by omega
  exact hcases.imp UInt32.toNat_inj.1
    (.imp UInt32.toNat_inj.1 (.imp UInt32.toNat_inj.1 UInt32.toNat_inj.1))

theorem getKernelsWithDelays_eq {mix : UInt32} (h : mix ≤ 3) : getKernelsWithDelays mix =
    (delaySlots mix).map (delayItem mix) := by
  rcases mix_cases h with rfl | rfl | rfl | rfl
  · rfl
  · rfl
  · rfl
  · rfl

/-- How many nops a slot of the delay has: its label, but for the slot of 104. -/
def slotNops (delay : Int32) : Nat := if delay = 104 then 120 else delay.toInt.toNat

theorem delaySlots_eq (mix : UInt32) : delaySlots mix = delaySlots 0 ∨
    delaySlots mix = delaySlots 2 := by
  by_cases h2 : mix = 2
  · exact .inr (h2 ▸ rfl)
  · rw [delaySlots, if_neg h2]
    exact .inl rfl

theorem delaySlots_nops {mix : UInt32} (h : x ∈ delaySlots mix) :
    x.2 = .replicate (slotNops x.1) .nop := by
  revert x
  rcases delaySlots_eq mix with he | he
  · rw [he]
    decide +kernel
  · rw [he]
    decide +kernel

theorem Sweeps.delayKernel (h : Sweeps 0 c) (mix : UInt32) : Sweeps 256 (delayKernel mix c) := by
  rw [MmMem.delayKernel]
  split
  · exact h.kR1w0S
  · split
    · exact h.kR1w1S
    · split
      · exact h.kR2w1S
      · exact h.kR3w1S

theorem delaySlots_sweep {mix : UInt32} (h : x ∈ delaySlots mix) : Sweeps 0 x.2 := by
  rw [delaySlots_nops h]
  exact .nops _

/-- A mix above 3 has no kernels of its own, but one of mix 2. -/
theorem getKernelsWithDelays_other {mix : UInt32} (h : ¬ mix ≤ 3) :
    getKernelsWithDelays mix = [(0, delayKernel 2 mn256)] := by
  have hne : ∀ k : UInt32, k ≤ 3 → mix ≠ k := fun k hk he => h (he ▸ hk)
  rw [getKernelsWithDelays, if_neg (hne 0 (by decide)), if_neg (hne 1 (by decide)),
    if_neg (hne 2 (by decide)), if_neg (hne 3 (by decide))]
  rfl

theorem getKernelsWithDelays_sweep (h : (d, c) ∈ getKernelsWithDelays mix) : Sweeps 256 c := by
  by_cases hmix : mix ≤ 3
  · rw [getKernelsWithDelays_eq hmix] at h
    obtain ⟨x, hx, he⟩ := List.mem_map.1 h
    cases he
    exact (delaySlots_sweep hx).delayKernel mix
  · rw [getKernelsWithDelays_other hmix] at h
    cases List.mem_singleton.1 h
    have hslot : ((256, mn256) : Int32 × Code) ∈ delaySlots 2 := by decide +kernel
    exact (delaySlots_sweep hslot).delayKernel 2

/-- The kernel is one that `get_kernels_with_wrmix` or `get_kernels_with_delays` returns. -/
def Listed (mix : UInt32) (c : Code) : Prop :=
  (∃ m, (m, c) ∈ rwmixAndKernels mix) ∨ ∃ d, (d, c) ∈ getKernelsWithDelays mix

theorem Listed.sweeps (h : Listed mix c) : Sweeps 256 c := by
  rcases h with ⟨m, h⟩ | ⟨d, h⟩
  · exact rwmixAndKernels_sweep h
  · exact getKernelsWithDelays_sweep h

variable {r : MemRegion} {c : Code}

theorem Sweeps.kernelBw (h : Sweeps 256 c) (r : MemRegion) (s : KernelState) :
    (runCode r c s >>= fun s => .done s.p) = kernelBw r s.p := by
  have hfst : ∀ n (t : Nat × List Nat),
      (Run.loop (fun _ => accessSlot r) n 0 t >>= fun t => .done t.1) =
        Run.loop (fun _ p => do
          let _ ← r.loadWord p
          return u64 (p + 32)) n 0 t.1 := by
    intro n t
    induction n with
    | zero => rfl
    | succ n ih =>
      rw [Run.loop_succ, Run.loop_succ, ← ih, Run.bind_assoc, Run.bind_assoc]
      apply Run.bind_congr rfl
      intro t
      rw [accessSlot, Run.bind_assoc]
      rfl
  have hplace : (runCode r c s >>= fun s => .done s.p) =
      (runCode r c s >>= fun s => .done s.place) >>= fun t => .done t.1 := by
    rw [Run.bind_assoc]
    rfl
  rw [hplace, h, hfst]
  rfl

theorem accessSlots_eq (hsize : r.size < 2 ^ 64) (hfits : p + 32 * n ≤ r.size)
    (touched : List Nat) : Run.loop (fun _ => accessSlot r) n 0 (p, touched) =
      .done (p + 32 * n, touched ++ (List.range n).map fun j => p + 32 * j) := by
  induction n with
  | zero => rw [List.range_zero, List.map_nil, List.append_nil]; rfl
  | succ n ih =>
    rw [Run.loop_succ, ih (by omega), Run.done_bind, accessSlot, MemRegion.loadWord,
      if_pos (by omega), Run.done_bind, u64_eq (by omega), List.range_succ, List.map_append,
      ← List.append_assoc]
    rfl

theorem Sweeps.call (h : Sweeps n c) (hsize : r.size < 2 ^ 64) (s : KernelState)
    (hfits : s.p + 32 * n ≤ r.size) : ∃ s', runCode r c s = .done s' ∧ s'.p = s.p + 32 * n ∧
      s'.accesses.map Access.offset =
        s.accesses.map Access.offset ++ (List.range n).map fun j => s.p + 32 * j := by
  have hplace := h r s
  rw [KernelState.place, accessSlots_eq hsize hfits] at hplace
  obtain ⟨s', hs', he⟩ := Run.bind_eq_done.1 hplace
  obtain ⟨hp, haccesses⟩ := Prod.mk.inj (Run.done.inj he)
  exact ⟨s', hs', hp, haccesses⟩

end MmMem

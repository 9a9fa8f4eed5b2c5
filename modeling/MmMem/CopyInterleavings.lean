import MmMem.CopyFragments
import MmMem.LatencyInterleavings

namespace MmMem
open Prog
set_option autoImplicit true

/-- A worker of `cpu_memcpy`, with the region it copies to and the one it copies from. -/
structure CopyWorker where
  pkt : MemLatBwThreadPacket
  region : MemRegion
  srcRegion : MemRegion
  finishedBytes : Nat
  execTime : Float

/-- Both regions start out zeroed. -/
def Buffers.zeroed : Buffers := ⟨fun _ => 0, fun _ => 0, []⟩

/-- `total_bytes` and `total_exec_time` -/
def copyTotals (workers : List CopyWorker) : Totals :=
  workers.foldl (fun total w =>
    { count := total.count + .ofNat w.finishedBytes, execTime := total.execTime + w.execTime })
    ⟨0, 0⟩

/-- What `measure_mempcy_bandwidth` returns for the nanoseconds that a fragment takes. -/
def oneExecTimeNs (env : Surroundings) (config : Configuration) (totals : Totals) : UInt64 :=
  env.castUInt64 ((config.fragmentSizeB * config.numThreads.toUInt64).toFloat /
    totals.memBwGbps config.numThreads)

/-- The exact quotient is above 632. -/
example (env : Surroundings) (config : Configuration) (hthreads : config.numThreads = 1)
    (hfragment : config.fragmentSizeB = 3000) :
    oneExecTimeNs env config ⟨2097152 * 3000, elapsedSeconds 1234375000⟩ = 631 := by
  rw [oneExecTimeNs, hthreads, hfragment, Surroundings.castUInt64, if_pos (by decide +kernel)]
  decide +kernel

/-- The packet vector as `measure_mempcy_bandwidth` hands it to the workers. -/
def CopyWorker.prepare (config : Configuration) (lastMeasuredExecTimeNs : UInt64)
    (w : CopyWorker) : CopyWorker :=
  { w with pkt := w.pkt.forMemcpy config lastMeasuredExecTimeNs }

def CopyWorker.alloc (pkt : MemLatBwThreadPacket) : Run Fault (CopyWorker × Buffers) := do
  let (region, srcRegion) ← memRegionAllocMemcpy pkt
  return ({ pkt, region, srcRegion, finishedBytes := 0, execTime := 0 }, .zeroed)

def CopyWorker.copyFragment (env : Surroundings) (round : Nat) (w : CopyWorker) (start : Buffers) :
    Run Fault (CopyWorker × Buffers) := do
  let s ← MmMem.copyFragment (glibcMemcpy w.region w.srcRegion)
    (env.clock round w.pkt.threadId.toNat) env.fuel w.pkt w.region start
  return ({ w with
    finishedBytes := w.pkt.copiedBytes s.finished, execTime := s.timer.getElapsedTime }, s.cursor)

namespace Manager

/-- A round of `measure_mempcy_bandwidth`. -/
def measureMempcyBandwidth (env : Surroundings) (config : Configuration) (round : Nat)
    (lastMeasuredExecTimeNs : UInt64) (workers : List (CopyWorker × Buffers)) :
    Run Fault (List (CopyWorker × Buffers) × Totals) := do
  let workers ← Run.all (workers.map fun x =>
    (x.1.prepare config lastMeasuredExecTimeNs).copyFragment env round x.2)
  return (workers, copyTotals (workers.map Prod.fst))

/-- `main` of `cpu_memcpy` behind its checks: the setup, a warm-up round and one that is printed. -/
def memcpyBandwidth (env : Surroundings) (config : Configuration) : Run Fault Totals := do
  let workers ← Run.all ((preparePackets config (-1) config.numThreads).map CopyWorker.alloc)
  let (workers, totals) ← measureMempcyBandwidth env config 0 0 workers
  let (_, totals) ← measureMempcyBandwidth env config 1 (oneExecTimeNs env config totals) workers
  return totals

end Manager

namespace Accessing

/-- `mem_region_alloc_memcpy`, once the allocations have placed the regions. -/
def allocMemcpy (dstBase srcBase : Nat) (pkt : MemLatBwThreadPacket) : Accessing CopyWorker := do
  let (region, srcRegion) ← memRegionAllocMemcpy pkt
  zeroFill dstBase region.size
  zeroFill srcBase srcRegion.size
  return { pkt, region, srcRegion, finishedBytes := 0, execTime := 0 }

/-- `copy_fragment` between regions that start at two addresses, with this `memcpy`. -/
def copyFragment (memcpy : Nat → Nat → Nat → Accessing Unit) (env : Surroundings) (round : Nat)
    (dstBase srcBase : Nat) (w : CopyWorker) : Accessing CopyWorker := do
  let l ← memcpyLoop w.pkt w.region
  let f := w.pkt.fragmentSize.toNat
  let copy i (_ : Unit) := memcpy (u64 (dstBase + u64 (f * i))) (u64 (srcBase + u64 (f * i))) f
  let clock := env.clock round w.pkt.threadId.toNat
  let s ← whileTrue l clock copy id env.fuel (l.start clock ())
  return { w with
    finishedBytes := w.pkt.copiedBytes s.finished, execTime := s.timer.getElapsedTime }

end Accessing

/-- What the workers rely on: between ranges that do not overlap, `memcpy` loads bytes of its
source only, stores to its destination only, and leaves a copy. -/
structure CopiesBytes (memcpy : Nat → Nat → Nat → Accessing Unit) : Prop where
  refines : ∀ {may : ByteAccess → Prop} {b : Bytes} {dest src n : Nat},
    dest + n ≤ src ∨ src + n ≤ dest → (∀ i < n, may (.load (src + i))) →
      (∀ i < n, ∀ x, may (.store (dest + i) x)) →
      (memcpy dest src n).Refines byteMemory may
        (fun _ b' _ => ∀ a, b' a = if dest ≤ a ∧ a < dest + n then b (src + (a - dest)) else b a)
        b (.done () : Run Fault Unit)

/-- A `memcpy` that copies one byte after the other. -/
def bytewiseMemcpy (dest src : Nat) : Nat → Accessing Unit
  | 0 => pure ()
  | n + 1 => do
    let x : UInt8 ← Caller.ask (ByteAccess.load src)
    Caller.ask (ByteAccess.store dest x)
    bytewiseMemcpy (dest + 1) (src + 1) n

theorem bytewiseMemcpy_copies : CopiesBytes bytewiseMemcpy := by
  refine ⟨fun {may b dest src n} hapart hload hstore => ?_⟩
  induction n generalizing dest src b with
  | zero => exact .done fun a => (if_neg (by omega)).symm
  | succ n ih =>
    rw [bytewiseMemcpy]
    have hfirst : (Caller.ask (ByteAccess.load src) : Accessing UInt8).Refines byteMemory may
        (fun x s _ => x = b src ∧ s = b) b (.done () : Run Fault Unit) :=
      .ask (hload 0 (Nat.succ_pos n)) ⟨rfl, rfl⟩
    apply hfirst.bind (g := fun _ => .done ())
    rintro x s - ⟨rfl, rfl⟩
    have hsecond : (Caller.ask (ByteAccess.store dest (s src)) : Accessing Unit).Refines byteMemory
        may (fun _ s' _ => s' = Function.update s dest (s src)) s (.done () : Run Fault Unit) :=
      .ask (hstore 0 (Nat.succ_pos n) _) rfl
    apply hsecond.bind (g := fun _ => .done ())
    rintro _ s' - rfl
    have hrest : (bytewiseMemcpy (dest + 1) (src + 1) n).Refines byteMemory may _
        (Function.update s dest (s src)) (.done () : Run Fault Unit) :=
      ih (by omega) (fun i hi => Nat.succ_add_eq_add_succ src i ▸ hload (i + 1) (by omega))
        (fun i hi x => Nat.succ_add_eq_add_succ dest i ▸ hstore (i + 1) (by omega) x)
    apply hrest.mono
    intro _ s' _ hs' a
    rw [hs']
    by_cases hhead : a = dest
    · rw [if_neg (by omega), if_pos (by omega), hhead, Function.update_self, Nat.sub_self]
      rfl
    · rw [Function.update_of_ne hhead]
      by_cases hin : dest + 1 ≤ a ∧ a < dest + 1 + n
      · rw [if_pos hin, if_pos (by omega), Function.update_of_ne (by omega)]
        exact congrArg s (by omega)
      · rw [if_neg hin, if_neg (by omega)]

/-- The bytes at the two addresses are those of the buffers. -/
structure Mirrors (dstBase srcBase size : Nat) (buffers : Buffers) (b : Bytes) : Prop where
  dst : ∀ o < size, b (dstBase + o) = buffers.dst o
  src : ∀ o < size, b (srcBase + o) = buffers.src o

variable {may : ByteAccess → Prop} {memcpy : Nat → Nat → Nat → Accessing Unit} {b : Bytes}
  {dst src : MemRegion} {buffers : Buffers}

theorem Mirrors.congr (h : Mirrors dstBase srcBase size buffers b)
    (hdst : ∀ o < size, b (dstBase + o) = b' (dstBase + o))
    (hsrc : ∀ o < size, b (srcBase + o) = b' (srcBase + o)) :
    Mirrors dstBase srcBase size buffers b' :=
  ⟨fun o ho => (hdst o ho).symm.trans (h.dst o ho), fun o ho => (hsrc o ho).symm.trans (h.src o ho)⟩

/-- A worker whose regions start at the two addresses, and the buffers of the worker alone. -/
structure CopyWorker.Mirrored (dstBase srcBase size : Nat) (w : CopyWorker) (b : Bytes)
    (x : CopyWorker × Buffers) : Prop where
  same : w = x.1
  dstSize : w.region.size = size
  srcSize : w.srcRegion.size = size
  mirrors : Mirrors dstBase srcBase size x.2 b

/-- A thread's two regions, one apart from the other. -/
structure OwnedPair (may : ByteAccess → Prop) (dstBase srcBase size : Nat) : Prop where
  dst : Owned may dstBase size
  src : Owned may srcBase size
  apart : dstBase + size ≤ srcBase ∨ srcBase + size ≤ dstBase

namespace Accessing

theorem memcpy_refines (hcopy : CopiesBytes memcpy) (h : OwnedPair may dstBase srcBase size)
    (hdst : dst.size = size) (hsrc : src.size = size)
    (hm : Mirrors dstBase srcBase size buffers b) (hn : 0 < n) (o : Nat) :
    (memcpy (u64 (dstBase + o)) (u64 (srcBase + o)) n).Refines byteMemory may
      (fun _ b' buffers' => Mirrors dstBase srcBase size buffers' b') b
      (glibcMemcpy dst src o o n buffers) := by
  refine ⟨fun hx => ?_⟩
  by_cases hfits : o + n ≤ size
  · have hdstFits := h.dst.fits
    have hsrcFits := h.src.fits
    have hap := h.apart
    rw [glibcMemcpy, if_neg (by omega), if_neg (by omega), u64_eq (by omega), u64_eq (by omega)]
    have hrefines : (memcpy (dstBase + o) (srcBase + o) n).Refines byteMemory may _ b
        (.done () : Run Fault Unit) := hcopy.refines (by omega) ?_ ?_
    · refine (Caller.Refines.map (fun _ => _) hrefines ?_).ends fun _ => Run.done_ne_fault
      rintro _ b' - hb'
      constructor
      · intro a ha
        dsimp only
        rw [hb']
        by_cases hin : o ≤ a ∧ a < o + n
        · rw [if_pos (by omega), if_pos hin, ← hm.src _ (by omega)]
          exact congrArg b (by omega)
        · rw [if_neg (by omega), if_neg hin, hm.dst a ha]
      · intro a ha
        rw [hb', if_neg (by omega), hm.src a ha]
    · exact fun i hi => h.src.may _ ⟨Nat.le_trans (Nat.le_add_right _ o) (Nat.le_add_right _ i),
        by change srcBase + o + i < srcBase + size; omega⟩
    · exact fun i hi x => h.dst.may _ ⟨Nat.le_trans (Nat.le_add_right _ o) (Nat.le_add_right _ i),
        by change dstBase + o + i < dstBase + size; omega⟩
  · rw [glibcMemcpy, if_pos (by omega)] at hx
    exact absurd rfl (hx _)

/-- `copy_fragment` on the bytes does what it does on the buffers they mirror. -/
theorem copyFragment_refines (hcopy : CopiesBytes memcpy) {w : CopyWorker}
    (h : OwnedPair may dstBase srcBase size)
    (hw : w.Mirrored dstBase srcBase size b (w, buffers))
    (hpos : 0 < w.pkt.fragmentSize.toNat) (env : Surroundings) (round : Nat) :
    (copyFragment memcpy env round dstBase srcBase w).Refines byteMemory may
      (CopyWorker.Mirrored dstBase srcBase size) b (w.copyFragment env round buffers) := by
  rw [CopyWorker.copyFragment, MmMem.copyFragment, Run.bind_assoc]
  apply Caller.Refines.lift_bind
  intro l _
  have hrun : (whileTrue l (env.clock round w.pkt.threadId.toNat)
      (fun i (_ : Unit) => memcpy (u64 (dstBase + u64 (w.pkt.fragmentSize.toNat * i)))
        (u64 (srcBase + u64 (w.pkt.fragmentSize.toNat * i))) w.pkt.fragmentSize.toNat) id env.fuel
      (l.start (env.clock round w.pkt.threadId.toNat) ())).Refines byteMemory may
      (Alongside fun _ b buffers => Mirrors dstBase srcBase size buffers b) b
      (l.run (env.clock round w.pkt.threadId.toNat) (fun i => glibcMemcpy w.region w.srcRegion
        (u64 (w.pkt.fragmentSize.toNat * i)) (u64 (w.pkt.fragmentSize.toNat * i))
        w.pkt.fragmentSize.toNat) id env.fuel buffers) := by
    apply whileTrue_refines
    · intro i _ b buffers hm
      exact memcpy_refines hcopy h hw.dstSize hw.srcSize hm hpos _
    · exact fun _ _ _ hm => hm
    · exact ⟨buffers, rfl, hw.mirrors⟩
  apply hrun.bind
  rintro s b' _ ⟨buffers', rfl, hm'⟩
  exact .done ⟨rfl, hw.dstSize, hw.srcSize, hm'⟩

theorem allocMemcpy_refines {pkt : MemLatBwThreadPacket}
    (hsize : (pkt.regionSizeKb * 1024).toNat = size) (h : OwnedPair may dstBase srcBase size)
    (b : Bytes) : (allocMemcpy dstBase srcBase pkt).Refines byteMemory may
      (CopyWorker.Mirrored dstBase srcBase size) b (CopyWorker.alloc pkt) := by
  rw [allocMemcpy, CopyWorker.alloc]
  apply Caller.Refines.lift_bind
  rintro ⟨dst, src⟩ halloc
  have hregions : dst.size = size ∧ src.size = size := by
    rw [memRegionAllocMemcpy, MemRegion.new_eq, if_neg (by decide)] at halloc
    cases halloc
    exact ⟨hsize, hsize⟩
  obtain ⟨hdst, hsrc⟩ := hregions
  dsimp only
  rw [hdst, hsrc]
  have hap := h.apart
  refine (zeroFill_fills h.dst b).bind (g := fun _ => .done _) ?_
  intro _ b₁ _ hfirst
  refine (zeroFill_fills h.src b₁).bind (g := fun _ => .done _) ?_
  intro _ b₂ _ hsecond
  refine .done ⟨rfl, hdst, hsrc, fun o ho => ?_, fun o ho => ?_⟩
  · rw [hsecond, if_neg (by omega), hfirst, if_pos (by omega)]
    rfl
  · rw [hsecond, if_pos (by omega)]
    rfl

end Accessing

namespace Placement

variable (P : Placement (2 * n) size)

/-- Each worker has two regions, one behind the other in the list. -/
def pairs : Territory Nat where
  mine i a := i < n ∧ ((P.base (2 * i) ≤ a ∧ a < P.base (2 * i) + size) ∨
    (P.base (2 * i + 1) ≤ a ∧ a < P.base (2 * i + 1) + size))
  apart {v w a} hne hw hv := by
    obtain ⟨hwn, hw⟩ := hw
    obtain ⟨hvn, hv⟩ := hv
    have h₁ := P.apart (i := 2 * v) (j := 2 * w) (by omega) (by omega) (by omega)
    have h₂ := P.apart (i := 2 * v) (j := 2 * w + 1) (by omega) (by omega) (by omega)
    have h₃ := P.apart (i := 2 * v + 1) (j := 2 * w) (by omega) (by omega) (by omega)
    have h₄ := P.apart (i := 2 * v + 1) (j := 2 * w + 1) (by omega) (by omega) (by omega)
    omega

theorem ownedPair (hi : i < n) :
    OwnedPair (P.pairs.division.may i) (P.base (2 * i)) (P.base (2 * i + 1)) size where
  dst := ⟨P.start (by omega), P.fits (by omega), fun _ ho => ⟨hi, .inl ho⟩⟩
  src := ⟨P.start (by omega), P.fits (by omega), fun _ ho => ⟨hi, .inr ho⟩⟩
  apart := P.apart (by omega) (by omega) (by omega)

end Placement

/-- All workers stand as they would alone. -/
structure AllMirrored (P : Placement (2 * n) size) (workers : List CopyWorker) (b : Bytes)
    (xs : List (CopyWorker × Buffers)) : Prop where
  length : workers.length = n
  length' : xs.length = n
  each : ∀ (i : Nat) (w : CopyWorker), workers[i]? = some w → ∃ x, xs[i]? = some x ∧
    w.Mirrored (P.base (2 * i)) (P.base (2 * i + 1)) size b x

variable {P : Placement (2 * n) size} {workers : List CopyWorker} {xs : List (CopyWorker × Buffers)}

theorem AllMirrored.eq_map (h : AllMirrored P workers b xs) : workers = xs.map Prod.fst := by
  apply List.ext_getElem?
  intro i
  rw [List.getElem?_map]
  cases hw : workers[i]? with
  | some w =>
    obtain ⟨x, hx, hmirrored⟩ := h.each i w hw
    rw [hx, hmirrored.same]
    rfl
  | none =>
    have hle : xs.length ≤ i := by
      rw [h.length', ← h.length]
      exact List.getElem?_eq_none_iff.1 hw
    rw [List.getElem?_eq_none_iff.2 hle]
    rfl

/-- A main thread that waits for workers with two regions each. -/
abbrev JoiningCopies (α : Type) : Type :=
  ForkJoin ByteAccess ByteAccess.Answer Fault CopyWorker α

namespace Joining

/-- `create()` and `join()` for workers with two regions each. -/
def runPairs (base : Nat → Nat) (routine : Nat → Nat → α → Accessing CopyWorker)
    (packets : List α) : JoiningCopies (List CopyWorker) :=
  ForkJoin.all (packets.mapIdx fun i pkt => routine (base (2 * i)) (base (2 * i + 1)) pkt)

theorem runPairs_refines {routine : Nat → Nat → α → Accessing CopyWorker} {packets : List α}
    {runs : List (Run Fault (CopyWorker × Buffers))} (hlen : packets.length = n)
    (hruns : runs.length = n)
    (h : ∀ (i : Nat) (pkt : α), packets[i]? = some pkt → i < n → ∃ x, runs[i]? = some x ∧
      (routine (P.base (2 * i)) (P.base (2 * i + 1)) pkt).Refines byteMemory
        (P.pairs.division.may i)
        (CopyWorker.Mirrored (P.base (2 * i)) (P.base (2 * i + 1)) size) b x) :
    (runPairs P.base routine packets).Refines P.pairs.division (AllMirrored P) b
      (Run.all runs) := by
  have hlength : (packets.mapIdx fun i pkt =>
      routine (P.base (2 * i)) (P.base (2 * i + 1)) pkt).length = runs.length := by
    rw [List.length_mapIdx, hlen, hruns]
  have hall := ForkJoin.Refines.all (D := P.pairs.division) (s := b)
    (fun i => CopyWorker.Mirrored (P.base (2 * i)) (P.base (2 * i + 1)) size) hlength (by
      intro i t ht
      rw [List.getElem?_mapIdx, Option.map_eq_some_iff] at ht
      obtain ⟨pkt, hpkt, rfl⟩ := ht
      exact h i pkt hpkt (hlen ▸ (List.getElem?_eq_some_iff.1 hpkt).1))
  rw [hruns] at hall
  refine hall.mono ?_
  rintro ws b' xs ⟨hws, hxs, hmirrored⟩
  refine ⟨hws, hxs, fun i w hw => ?_⟩
  obtain ⟨x, hx, own, halike, hown⟩ := hmirrored i w hw
  have hi : i < n := hws ▸ (List.getElem?_eq_some_iff.1 hw).1
  refine ⟨x, hx, hown.same, hown.dstSize, hown.srcSize, hown.mirrors.congr ?_ ?_⟩
  · intro o ho
    exact (halike _ ⟨hi, .inl ⟨by omega, by omega⟩⟩).symm
  · intro o ho
    exact (halike _ ⟨hi, .inr ⟨by omega, by omega⟩⟩).symm

def measureMempcyBandwidth (memcpy : Nat → Nat → Nat → Accessing Unit) (env : Surroundings)
    (config : Configuration) (base : Nat → Nat) (round : Nat) (lastMeasuredExecTimeNs : UInt64)
    (workers : List CopyWorker) : JoiningCopies (List CopyWorker × Totals) := do
  let workers ← runPairs base (Accessing.copyFragment memcpy env round)
    (workers.map (CopyWorker.prepare config lastMeasuredExecTimeNs))
  return (workers, copyTotals workers)

def memcpyBandwidth (memcpy : Nat → Nat → Nat → Accessing Unit) (env : Surroundings)
    (config : Configuration) (base : Nat → Nat) : JoiningCopies Totals := do
  let workers ← runPairs base Accessing.allocMemcpy (preparePackets config (-1) config.numThreads)
  let (workers, totals) ← measureMempcyBandwidth memcpy env config base 0 0 workers
  let (_, totals) ←
    measureMempcyBandwidth memcpy env config base 1 (oneExecTimeNs env config totals) workers
  return totals

theorem measureMempcyBandwidth_refines (hcopy : CopiesBytes memcpy) (h : AllMirrored P workers b xs)
    {config : Configuration} (hpos : 0 < config.fragmentSizeB.toNat) (env : Surroundings)
    (round : Nat) (lastExecTimeNs : UInt64) :
    (measureMempcyBandwidth memcpy env config P.base round lastExecTimeNs workers).Refines
      P.pairs.division (fun x b' y => x.2 = y.2 ∧ AllMirrored P x.1 b' y.1) b
      (Manager.measureMempcyBandwidth env config round lastExecTimeNs xs) := by
  rw [measureMempcyBandwidth, Manager.measureMempcyBandwidth]
  refine (runPairs_refines ((List.length_map _).trans h.length)
    ((List.length_map _).trans h.length') ?_).bind ?_
  · intro i w hw hi
    rw [List.getElem?_map, Option.map_eq_some_iff] at hw
    obtain ⟨w, hw, rfl⟩ := hw
    obtain ⟨⟨_, buffers⟩, hx, rfl, hdst, hsrc, hm⟩ := h.each i w hw
    refine ⟨_, by rw [List.getElem?_map, hx]; rfl, ?_⟩
    exact Accessing.copyFragment_refines (w := w.prepare config lastExecTimeNs) hcopy
      (P.ownedPair hi) ⟨rfl, hdst, hsrc, hm⟩ hpos env round
  · rintro ws b' xs' hmirrored
    exact .done ⟨congrArg copyTotals hmirrored.eq_map, hmirrored⟩

theorem memcpyBandwidth_refines (hcopy : CopiesBytes memcpy) (env : Surroundings)
    {config : Configuration} (hpos : 0 < config.fragmentSizeB.toNat)
    (P : Placement (2 * config.numThreads.toNat) config.regionBytes) (b : Bytes) :
    (memcpyBandwidth memcpy env config P.base).Refines P.pairs.division (fun x _ y => x = y) b
      (Manager.memcpyBandwidth env config) := by
  rw [memcpyBandwidth, Manager.memcpyBandwidth]
  refine (runPairs_refines (preparePackets_length ..)
    ((List.length_map _).trans (preparePackets_length ..)) ?_).bind ?_
  · intro i pkt hpkt hi
    refine ⟨_, by rw [List.getElem?_map, hpkt]; rfl, ?_⟩
    exact Accessing.allocMemcpy_refines (preparePackets_size hpkt) (P.ownedPair hi) b
  · rintro workers b' xs hmirrored
    apply (measureMempcyBandwidth_refines hcopy hmirrored hpos env 0 0).bind
    rintro ⟨workers, totals⟩ b'' ⟨xs, _⟩ ⟨rfl, hmirrored⟩
    apply (measureMempcyBandwidth_refines hcopy hmirrored hpos env 1 _).bind
    rintro ⟨workers, totals⟩ _ ⟨xs, _⟩ ⟨rfl, -⟩
    exact .done rfl

end Joining

/-- What a worker of `cpu_memcpy` keeps, once a packet has been prepared for it. -/
def CopyWorker.Ready (config : Configuration) (w : CopyWorker) : Prop :=
  ∀ last, CopySetup (w.pkt.forMemcpy config last) w.region w.srcRegion

namespace Manager

variable {parsed config : Configuration}

theorem alloc_ready (hcheck : parsed.checkFragment = .ok config) (node : Int32)
    (numThreads threadId : UInt32) : Run.Safe (fun x => x.1.Ready config)
      (CopyWorker.alloc (prepareMemLatBwThreadPacket config node numThreads threadId)) := by
  rw [CopyWorker.alloc]
  cases halloc :
    memRegionAllocMemcpy (prepareMemLatBwThreadPacket config node numThreads threadId) with
  | done regions => exact .done fun last => .of_check hcheck halloc last
  | fault e =>
    rw [memRegionAllocMemcpy, MemRegion.new_eq, if_neg (by decide)] at halloc
    cases halloc
  | running => exact .running

theorem copyFragment_ready {w : CopyWorker} (h : w.Ready config) (env : Surroundings)
    (round : Nat) (last : UInt64) (start : Buffers) : Run.Safe (fun x => x.1.Ready config)
      ((w.prepare config last).copyFragment env round start) := by
  rw [CopyWorker.copyFragment]
  apply ((h last).copyFragment_tiled _ _ _).bind
  intro s _
  exact .done h

theorem measureMempcyBandwidth_safe (env : Surroundings) (round : Nat) (last : UInt64)
    {xs : List (CopyWorker × Buffers)} (h : ∀ x ∈ xs, x.1.Ready config) :
    Run.Safe (fun y => ∀ x ∈ y.1, x.1.Ready config)
      (measureMempcyBandwidth env config round last xs) := by
  apply (Run.Safe.all (P := fun x => CopyWorker.Ready config x.1) _).bind
  · rintro ys ⟨-, hall⟩
    exact .done hall
  · intro x hx
    obtain ⟨y, hy, rfl⟩ := List.mem_map.1 hx
    exact copyFragment_ready (h y hy) env round last y.2

theorem memcpyBandwidth_safe (hcheck : parsed.checkFragment = .ok config) (env : Surroundings) :
    Run.Safe (fun _ => True) (memcpyBandwidth env config) := by
  apply (Run.Safe.all (P := fun x => CopyWorker.Ready config x.1) _).bind
  · rintro xs ⟨-, hall⟩
    apply (measureMempcyBandwidth_safe env 0 0 hall).bind
    rintro ⟨ys, totals⟩ hall
    apply (measureMempcyBandwidth_safe env 1 _ hall).bind
    intro _ _
    exact .done trivial
  · intro x hx
    obtain ⟨pkt, hpkt, rfl⟩ := List.mem_map.1 hx
    obtain ⟨threadId, rfl⟩ := mem_preparePackets hpkt
    exact alloc_ready hcheck ..

variable {env : Surroundings}

theorem alloc_returns (hcheck : parsed.checkFragment = .ok config) (node : Int32)
    (numThreads threadId : UInt32) : Run.Returns (fun x => x.1.Ready config) fun _ =>
      CopyWorker.alloc (prepareMemLatBwThreadPacket config node numThreads threadId) := by
  apply Run.Returns.of_safe (alloc_ready hcheck node numThreads threadId)
  rw [CopyWorker.alloc, memRegionAllocMemcpy, MemRegion.new_eq, if_neg (by decide)]
  exact Run.done_ne_running

theorem copyFragment_returns {w : CopyWorker} (h : w.Ready config) (henv : env.Timely config)
    (round : Nat) (last : UInt64) (start : Buffers) :
    Run.Returns (fun x => x.1.Ready config) fun fuel =>
      (w.prepare config last).copyFragment { env with fuel } round start := by
  have hpkt : (w.prepare config last).pkt.Within config := targetDuration_le _ _
  apply (MmMem.copyFragment_returns (h last) (henv.clock hpkt _ _) start).bind
  intro s _
  exact .done (fun _ => rfl) h

theorem measureMempcyBandwidth_returns (henv : env.Timely config) (round : Nat) (last : UInt64)
    {xs : List (CopyWorker × Buffers)} (h : ∀ x ∈ xs, x.1.Ready config) :
    Run.Returns (fun y => ∀ x ∈ y.1, x.1.Ready config)
      fun fuel => measureMempcyBandwidth { env with fuel } config round last xs := by
  refine (Run.Returns.all (P := fun x => CopyWorker.Ready config x.1) ?_).bind ?_
  · exact fun x hx => copyFragment_returns (h x hx) henv round last x.2
  · rintro ys ⟨-, hall⟩
    exact .done (fun _ => rfl) hall

theorem memcpyBandwidth_returns (hcheck : parsed.checkFragment = .ok config)
    (henv : env.Timely config) :
    Run.Returns (fun _ => True) fun fuel => memcpyBandwidth { env with fuel } config := by
  have hset : Run.Returns (fun xs : List (CopyWorker × Buffers) =>
      xs.length = (preparePackets config (-1) config.numThreads).length ∧
        ∀ x ∈ xs, x.1.Ready config)
      fun _ => Run.all ((preparePackets config (-1) config.numThreads).map CopyWorker.alloc) := by
    apply Run.Returns.all (P := fun x => CopyWorker.Ready config x.1)
      (f := fun _ => CopyWorker.alloc)
    intro pkt hpkt
    obtain ⟨threadId, rfl⟩ := mem_preparePackets hpkt
    exact alloc_returns hcheck ..
  apply hset.bind
  rintro xs ⟨-, hall⟩
  apply (measureMempcyBandwidth_returns henv 0 0 hall).bind
  rintro ⟨ys, totals⟩ hall
  apply (measureMempcyBandwidth_returns henv 1 (oneExecTimeNs env config totals) hall).bind
  intro _ _
  exact .done (fun _ => rfl) trivial

end Manager

end MmMem

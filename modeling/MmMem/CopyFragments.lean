import MmMem.TimedLoops
import Mathlib.Algebra.Order.Group.MinMax

namespace MmMem
open Prog
set_option autoImplicit true

/-- A call of the kernel: `count` bytes, between offsets in the two regions. -/
structure Copy where
  dest : Nat
  src : Nat
  count : Nat
  deriving Repr, DecidableEq

/-- The bytes of the two regions, and the copies that have been made. -/
structure Buffers where
  dst : Nat → UInt8
  src : Nat → UInt8
  copies : List Copy

/-- `memcpy`, from one region into another. -/
def glibcMemcpy (dst src : MemRegion) (dest source count : Nat) (b : Buffers) :
    Run Fault Buffers :=
  if dest + count > dst.size then .fault (.outsideRegion dest)
  else if source + count > src.size then .fault (.outsideRegion source)
  else .done { b with
    dst := fun o => if dest ≤ o ∧ o < dest + count then b.src (source + (o - dest)) else b.dst o
    copies := b.copies ++ [⟨dest, source, count⟩] }

/-- The copy of fragment `k`, for fragments of `f` bytes. -/
def Copy.fragment (f k : Nat) : Copy := ⟨f * k, f * k, f⟩

/-- After `n` calls, `i` of them in the pass begun, the copies have gone through the `L` fragments
over and over; what they have come by is copied. -/
structure Tiled (f L : Nat) (start : Buffers) (n i : Nat) (b : Buffers) : Prop where
  pass : ∃ q, n = q * L + i
  copies : b.copies = start.copies ++ (List.range n).map fun t => .fragment f (t % L)
  copied : ∀ o, b.dst o = if o < f * min n L then start.src o else start.dst o
  kept : b.src = start.src

variable {f L : Nat} {start b : Buffers}

theorem Tiled.zero (f L : Nat) (start : Buffers) : Tiled f L start 0 0 start where
  pass := ⟨0, (Nat.zero_mul L).symm⟩
  copies := (List.append_nil _).symm
  copied o := by
    rw [Nat.zero_min, Nat.mul_zero, if_neg (Nat.not_lt_zero o)]
  kept := rfl

theorem Tiled.restart (h : Tiled f L start n L b) : Tiled f L start n 0 b where
  pass := by
    obtain ⟨q, hq⟩ := h.pass
    exact ⟨q + 1, by rw [hq, Nat.succ_mul, Nat.add_zero]⟩
  copies := h.copies
  copied := h.copied
  kept := h.kept

theorem Tiled.call (dst src : MemRegion) (h : Tiled f L start n i b) (hi : i < L) (hdst : f * L ≤ dst.size)
    (hsrc : f * L ≤ src.size) :
    ∃ b', glibcMemcpy dst src (f * i) (f * i) f b = .done b' ∧ Tiled f L start (n + 1) (i + 1) b' := by
  have hend : f * i + f ≤ f * L := Nat.mul_le_mul_left f hi
  rw [glibcMemcpy, if_neg (by omega), if_neg (by omega)]
  obtain ⟨q, hq⟩ := h.pass
  refine ⟨_, rfl, ⟨q, by rw [hq, Nat.add_assoc]⟩, ?_, fun o => ?_, h.kept⟩
  · have hmod : n % L = i := by
      rw [hq, Nat.mul_comm, Nat.mul_add_mod, Nat.mod_eq_of_lt hi]
    dsimp only
    rw [h.copies, List.range_succ, List.map_append, List.map_singleton, hmod, List.append_assoc]
    rfl
  · dsimp only
    rw [h.copied, h.kept]
    by_cases hfirst : n < L
    · -- in the first pass the bytes copied so far grow by the fragment
      have hq0 : q = 0 := by
        by_contra hne
        have hle := Nat.le_mul_of_pos_left L (Nat.pos_of_ne_zero hne)
        omega
      have hni : n = i := by rw [hq, hq0, Nat.zero_mul, Nat.zero_add]
      rw [Nat.min_eq_left (by omega), Nat.min_eq_left (by omega), hni, Nat.mul_succ]
      by_cases hlow : f * i ≤ o
      · by_cases hhigh : o < f * i + f
        · rw [if_pos ⟨hlow, hhigh⟩, if_pos hhigh, Nat.add_sub_cancel' hlow]
        · rw [if_neg (fun ho => hhigh ho.2), if_neg (by omega), if_neg hhigh]
      · rw [if_neg (fun ho => hlow ho.1), if_pos (by omega), if_pos (by omega)]
    · -- later on they are copied once more
      rw [Nat.min_eq_right (by omega), Nat.min_eq_right (by omega)]
      by_cases hin : f * i ≤ o ∧ o < f * i + f
      · rw [if_pos hin, if_pos (by omega), Nat.add_sub_cancel' hin.1]
      · rw [if_neg hin]

/-- What the memcpy benchmark needs of a packet and its regions, as they are set up. -/
structure CopySetup (pkt : MemLatBwThreadPacket) (dst src : MemRegion) : Prop where
  positive : 0 < pkt.fragmentSize.toNat
  fits : pkt.fragmentSize.toNat ≤ dst.activeSize
  dstSize : dst.size = dst.activeSize
  srcSize : src.size = dst.activeSize
  small : dst.activeSize < 2 ^ 64

theorem CopySetup.of_check {parsed config : Configuration} (hcheck : parsed.checkFragment = .ok config)
    (halloc : memRegionAllocMemcpy (prepareMemLatBwThreadPacket config node numThreads threadId) =
      .done (dst, src)) (lastMeasuredExecTimeNs : UInt64) :
    CopySetup ((prepareMemLatBwThreadPacket config node numThreads threadId).forMemcpy config
      lastMeasuredExecTimeNs) dst src := by
  obtain ⟨hpos, hle⟩ := Configuration.checkFragment_fits hcheck
  rw [memRegionAllocMemcpy, MemRegion.new_eq, if_neg (by decide)] at halloc
  cases halloc
  exact ⟨hpos, hle, rfl, rfl, UInt64.toNat_lt _⟩

/-- Whatever the clock says, a run of `copy_fragment` goes through the fragments in order. -/
theorem CopySetup.copyFragment_tiled {pkt : MemLatBwThreadPacket} (h : CopySetup pkt dst src)
    (clock : Nat → Int) (fuel : Nat) (start : Buffers) :
    Run.Safe (fun s => ∃ i ≤ dst.activeSize / pkt.fragmentSize.toNat,
      Tiled pkt.fragmentSize.toNat (dst.activeSize / pkt.fragmentSize.toNat) start s.calls i s.cursor)
      (copyFragment (glibcMemcpy dst src) clock fuel pkt dst start) := by
  obtain ⟨l, hl, -, -, hcount⟩ := memcpyLoop_spec pkt dst h.positive
  rw [copyFragment, hl, Run.done_bind, ← hcount]
  have hend : pkt.fragmentSize.toNat * l.loopCount ≤ dst.activeSize := by
    rw [hcount]
    exact Nat.mul_div_le _ _
  have hdst := h.dstSize
  have hsrc := h.srcSize
  have hsmall := h.small
  dsimp only
  apply MeasureLoop.run_invariant (J := Tiled pkt.fragmentSize.toNat l.loopCount start)
    (Tiled.zero _ _ start) (fun _ _ => Tiled.restart)
  intro n i hi b hb
  have hlast : pkt.fragmentSize.toNat * i < 2 ^ 64 :=
    Nat.lt_of_le_of_lt (Nat.mul_le_mul_left _ (Nat.le_of_lt hi)) (by omega)
  obtain ⟨b', hb', htiled⟩ := hb.call dst src hi (by omega) (by omega)
  rw [u64_eq hlast, hb']
  exact .done htiled

/-- The fragments that pass the check tile the regions: a pass makes a call for each whole fragment,
all of them inside both regions, a run copies them in order over and over, and the bytes finished
are those of its calls, modulo 2^64. -/
theorem memcpy_fragments_tile (parsed config : Configuration) (node : Int32)
    (numThreads threadId : UInt32) (lastExecTimeNs : UInt64) (dst src : MemRegion)
    (hcheck : parsed.checkFragment = .ok config)
    (halloc : memRegionAllocMemcpy (prepareMemLatBwThreadPacket config node numThreads threadId) =
      .done (dst, src)) :
    let pkt := (prepareMemLatBwThreadPacket config node numThreads threadId).forMemcpy config
      lastExecTimeNs
    let f := config.fragmentSizeB.toNat
    let L := (config.regionSizeKb * 1024).toNat / f
    1 ≤ L ∧ (∃ l, memcpyLoop pkt dst = .done l ∧ l.loopCount = L) ∧
      (∀ k < L, f * (k + 1) ≤ dst.size ∧ f * (k + 1) ≤ src.size) ∧
      ∀ clock fuel start, Run.Safe
        (fun s => (∃ i ≤ L, Tiled f L start s.calls i s.cursor) ∧
          pkt.copiedBytes s.finished = u64 (f * s.calls))
        (copyFragment (glibcMemcpy dst src) clock fuel pkt dst start) := by
  intro pkt f L
  have hsetup : CopySetup pkt dst src := .of_check hcheck halloc lastExecTimeNs
  have hactive : dst.activeSize = (config.regionSizeKb * 1024).toNat :=
    (memRegionAllocMemcpy_region halloc).1
  have hend : f * L ≤ dst.activeSize := by
    rw [hactive]
    exact Nat.mul_div_le _ _
  have hdst := hsetup.dstSize
  have hsrc := hsetup.srcSize
  refine ⟨?_, ?_, fun k hk => ?_, fun clock fuel start => ?_⟩
  · exact (div_pos_iff_le hsetup.positive).2 (hactive ▸ hsetup.fits)
  · obtain ⟨l, hl, -, -, hcount⟩ := memcpyLoop_spec pkt dst hsetup.positive
    exact ⟨l, hl, by rw [hcount, hactive]; rfl⟩
  · have hle : f * (k + 1) ≤ f * L := Nat.mul_le_mul_left f hk
    omega
  · have htiled := hsetup.copyFragment_tiled clock fuel start
    cases hrun : copyFragment (glibcMemcpy dst src) clock fuel pkt dst start with
    | done s =>
      rw [hrun, Run.safe_done, hactive] at htiled
      obtain ⟨l, -, haccounted⟩ := copyFragment_accounted hrun
      exact .done ⟨htiled, haccounted.counted⟩
    | fault e =>
      rw [hrun] at htiled
      exact absurd htiled Run.not_safe_fault
    | running => exact .running

/-- A fragment size of 0 stands for the region: one call copies 2^54 + 1 KiB, modulo 2^64. Of 64 KiB
five fragments of 12 KiB are copied, and the rest is not. -/
theorem memcpy_fragments_tile_whole :
    let numa := NumaConfig.new ⟨0, 1, 1, fun _ => true, fun _ => 2 ^ 34, fun _ => some fun _ => true⟩
    let parsed := { Configuration.byDefault .memcpy numa with
      regionSizeKb := 18014398509481985, fragmentSizeB := 0 }
    let config := { parsed with fragmentSizeB := 1024 }
    let pieces := { parsed with regionSizeKb := 64, fragmentSizeB := 12288 }
    let r := MemRegion.layout 1024 1024 4096 64 0 0
    let r' := MemRegion.layout 65536 65536 4096 64 0 0
    parsed.checkFragment = .ok config ∧ pieces.checkFragment = .ok pieces ∧
      (∀ clock fuel start, Run.Safe (fun s => ∃ i ≤ 1, Tiled 1024 1 start s.calls i s.cursor)
        (copyFragment (glibcMemcpy r r) clock fuel
          ((prepareMemLatBwThreadPacket config (-1) 1 0).forMemcpy config 0) r start)) ∧
      ∀ clock fuel start, Run.Safe (fun s => ∃ i ≤ 5, Tiled 12288 5 start s.calls i s.cursor)
        (copyFragment (glibcMemcpy r' r') clock fuel
          ((prepareMemLatBwThreadPacket pieces (-1) 1 0).forMemcpy pieces 0) r' start) := by
  intro numa parsed config pieces r r'
  have hcheck : parsed.checkFragment = .ok config := by decide +kernel
  have hcheck' : pieces.checkFragment = .ok pieces := by decide +kernel
  obtain ⟨-, -, -, hrun⟩ :=
    memcpy_fragments_tile parsed config (-1) 1 0 0 r r hcheck (by decide +kernel)
  obtain ⟨-, -, -, hrun'⟩ :=
    memcpy_fragments_tile pieces pieces (-1) 1 0 0 r' r' hcheck' (by decide +kernel)
  have hfragment : config.fragmentSizeB.toNat = 1024 := by decide +kernel
  have hfragment' : pieces.fragmentSizeB.toNat = 12288 := by decide +kernel
  have hcalls : (config.regionSizeKb * 1024).toNat / 1024 = 1 := by decide +kernel
  have hcalls' : (pieces.regionSizeKb * 1024).toNat / 12288 = 5 := by decide +kernel
  refine ⟨hcheck, hcheck', fun clock fuel start => ?_, fun clock fuel start => ?_⟩
  · refine (hrun clock fuel start).mono fun s hs => ?_
    have htiled := hs.1
    rwa [hfragment, hcalls] at htiled
  · refine (hrun' clock fuel start).mono fun s hs => ?_
    have htiled := hs.1
    rwa [hfragment', hcalls'] at htiled

/-- Copies of 1 TiB, 200 seconds each, for 2^32 - 1 seconds: 2^64 bytes are too many to report. -/
theorem finished_bytes_truncated :
    let numa := NumaConfig.new ⟨0, 1, 1, fun _ => true, fun _ => 2 ^ 42, fun _ => some fun _ => true⟩
    let config := { Configuration.byDefault .memcpy numa with
      regionSizeKb := 2 ^ 30, fragmentSizeB := 2 ^ 40, targetDurationS := 4294967295 }
    let pkt := (prepareMemLatBwThreadPacket config (-1) 1 0).forMemcpy config 200000000000
    let r := MemRegion.layout (2 ^ 40) (2 ^ 40) 4096 64 0 0
    let start : Buffers := ⟨fun _ => 0, fun _ => 0, []⟩
    Configuration.parseOptions .memcpy numa ["cpu_memcpy".toList, "-b1073741824".toList,
        "-f1099511627776".toList, "-t4294967295".toList] = .done (.ok config) ∧
      config.checkFragment = .ok config ∧
      memRegionAllocMemcpy (prepareMemLatBwThreadPacket config (-1) 1 0) = .done (r, r) ∧
      ∃ fuel s, copyFragment (glibcMemcpy r r) (fun n => 200000000000 * n) fuel pkt r start =
        .done s ∧ pkt.copiedBytes s.finished ≠ pkt.fragmentSize.toNat * s.calls := by
  intro numa config pkt r start
  let clock : Nat → Int := fun n => 200000000000 * n
  let l : MeasureLoop := ⟨1, 1, 1, 4294967295000000000⟩
  have hclock : Advancing clock := by
    constructor
    · intro a b hab
      change (200000000000 : Int) * a ≤ 200000000000 * b
      omega
    · intro b
      refine ⟨b.toNat, ?_⟩
      change b ≤ (200000000000 : Int) * b.toNat
      omega
  have hl : memcpyLoop pkt r = .done l := by decide +kernel
  have hfragment : pkt.fragmentSize.toNat = 2 ^ 40 := by decide +kernel
  have hreturns : Returning fun (_ : Nat) => glibcMemcpy r r 0 0 (2 ^ 40) := fun _ _ => ⟨_, rfl⟩
  obtain ⟨fuel, s, hrun, hfinished, hlast⟩ :=
    MeasureLoop.exists_run_past (l := l) (n := 21474837) hclock hreturns id
      (by decide) (by decide) (by decide +kernel) (by decide) start
  refine ⟨by decide +kernel, by decide +kernel, by decide +kernel, fuel, s, ?_, fun he => ?_⟩
  · rw [copyFragment, hl, Run.done_bind, hfragment]
    dsimp only
    rw [← hrun]
    apply MeasureLoop.run_congr
    intro i hi
    obtain rfl : i = 0 := Nat.lt_one_iff.1 hi
    rfl
  · have hpast : (4294967295000000000 : Int) ≤
        200000000000 * s.calls - 200000000000 * (0 : Nat) := hlast
    have hlt : pkt.copiedBytes s.finished < 2 ^ 64 := u64_lt _
    rw [he, hfragment] at hlt
    omega

end MmMem

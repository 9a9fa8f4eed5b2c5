import MmMem.LatencyGeometry
import MmMem.MemRegionCycle

namespace MmMem
open Prog
set_option autoImplicit true

/-- A chase that keeps the offsets it has read a pointer from. -/
def chaseTouching (r : MemRegion) (m : Memory) (s : Nat × List Nat) : Run Fault (Nat × List Nat) := do
  let p ← r.loadPointer m s.1
  return (p, s.2 ++ [s.1])

/-- `kernelLat` with the offsets of its chases. -/
def kernelLatTouching (r : MemRegion) (m : Memory) (s : Nat × List Nat) :
    Run Fault (Nat × List Nat) := do
  let s ← Run.loop (fun _ => chaseTouching r m) 256 0 s
  let _ ← r.loadWord s.1
  return s

variable {r : MemRegion} {m : Memory}

theorem chases_fst (n : Nat) (s : Nat × List Nat) :
    (Run.loop (fun _ => chaseTouching r m) n 0 s >>= fun s => .done s.1) =
      Run.loop (fun _ p => r.loadPointer m p) n 0 s.1 := by
  induction n with
  | zero => rfl
  | succ n ih =>
    rw [Run.loop_succ, Run.loop_succ, ← ih, Run.bind_assoc, Run.bind_assoc]
    apply Run.bind_congr rfl
    intro t
    rw [chaseTouching, Run.bind_assoc, Run.done_bind]
    cases r.loadPointer m t.1 with
    | done p => rfl
    | fault e => rfl
    | running => rfl

/-- The offsets kept beside the pointer do not change what the kernel does. -/
theorem kernelLatTouching_fst (s : Nat × List Nat) :
    (kernelLatTouching r m s >>= fun s => .done s.1) = kernelLat r m s.1 := by
  rw [kernelLatTouching, kernelLat, ← chases_fst, Run.bind_assoc, Run.bind_assoc]
  apply Run.bind_congr rfl
  intro t
  rw [Run.bind_assoc, Run.done_bind]
  rfl

/-- A pass of `lat_ptr`: the pointer is reset to the start point, and no checkpoint breaks the
`loopCount` calls of the kernel. -/
def latPass (r : MemRegion) (m : Memory) (loopCount : Nat) : Run Fault (Nat × List Nat) :=
  Run.loop (fun _ => kernelLatTouching r m) loopCount 0 (0, [])

/-- What the inner loop leaves in the cursor when it runs to its end. -/
theorem MeasureLoop.forLoop_cursor {l : MeasureLoop} {clock : Nat → Int}
    {kernel : Nat → σ → Run ε σ} {s s' : LoopState σ}
    (h : l.forLoop clock kernel n i s = .done (i + n, s')) :
    Run.loop kernel n i s.cursor = .done s'.cursor := by
  induction n generalizing i s with
  | zero =>
    cases h
    rfl
  | succ n ih =>
    obtain ⟨⟨broke, t⟩, ht, h⟩ := Run.bind_eq_done.1 h
    obtain ⟨c, hc, ht⟩ := Run.bind_eq_done.1 ht
    have hcursor : t.cursor = c := by
      simp only [Run.pure_eq, Run.done.injEq] at ht
      split at ht
      · have hkeep := congrArg (fun p => p.2.cursor) ht
        rw [← hkeep]
        exact MeasureLoop.checkpoint_cursor _ _
      · cases ht
        rfl
    cases broke with
    | true =>
      have hstop : i = i + (n + 1) := by
        simp only [if_true, Run.pure_eq, Run.done.injEq, Prod.mk.injEq] at h
        exact h.1
      omega
    | false =>
      rw [Run.loop, hc, Run.done_bind, ← hcursor]
      apply ih
      rw [Nat.add_right_comm, Nat.add_assoc]
      exact h

/-- An unbroken pass of the loops of `lat_ptr` is a `latPass`. -/
theorem latPass_of_forLoop {l : MeasureLoop} {clock : Nat → Int}
    {s s' : LoopState (Nat × List Nat)}
    (h : l.forLoop clock (fun _ => kernelLatTouching r m) l.loopCount 0
      { s with cursor := (0, []) } = .done (l.loopCount, s')) :
    latPass r m l.loopCount = .done s'.cursor := by
  have hend : l.forLoop clock (fun _ => kernelLatTouching r m) l.loopCount 0
      { s with cursor := (0, []) } = .done (0 + l.loopCount, s') := by
    rw [Nat.zero_add]
    exact h
  exact MeasureLoop.forLoop_cursor hend

/-- A pass over the region reads pointers from different lines only. -/
def MemRegion.PassTouchesOnce (r : MemRegion) (m : Memory) (pkt : MemLatBwThreadPacket) : Prop :=
  ∃ l, latLoop pkt r = .done l ∧ ∃ p touched, latPass r m l.loopCount = .done (p, touched) ∧
    touched.length = l.loopCount * 256 ∧ touched.Nodup ∧
    ∀ o ∈ touched, o + 8 ≤ r.size ∧ ∃ i j, o = r.lineOffset i j

/-- The length of the chain the initializer of an access pattern builds. -/
def MemRegion.chainLength (r : MemRegion) (accessPattern : UInt32) : Nat :=
  if accessPattern = 0 then r.numStrides else r.numActivePages * r.numLinesInPage

variable {visit : Nat → Nat}

theorem MemRegion.Tours.chases_eq (h : r.Tours m visit n) (k t : Nat) (touched : List Nat) :
    Run.loop (fun _ => chaseTouching r m) k 0 (visit t, touched) =
      .done (visit (t + k), touched ++ (List.range k).map fun j => visit (t + j)) := by
  induction k with
  | zero => rw [List.range_zero, List.map_nil, List.append_nil]; rfl
  | succ k ih =>
    rw [Run.loop_succ, ih, Run.done_bind, chaseTouching,
      MemRegion.loadPointer_eq (h.fits _) (h.cycle.slot _), List.range_succ, List.map_append,
      ← List.append_assoc]
    rfl

theorem MemRegion.Tours.latPass_eq (h : r.Tours m visit n) (k : Nat) :
    latPass r m k = .done (visit (k * 256), (List.range (k * 256)).map visit) := by
  induction k with
  | zero =>
    rw [Nat.zero_mul, h.start]
    rfl
  | succ k ih =>
    rw [latPass, Run.loop_succ, ← latPass, ih, Run.done_bind, kernelLatTouching, h.chases_eq,
      Run.done_bind, MemRegion.loadWord, if_pos (h.fits _), Run.done_bind, Nat.succ_mul,
      List.range_add, List.map_append, List.map_map]
    rfl

theorem latLoop_loopCount (hne : u64 (256 * r.lineSize) ≠ 0) (pkt : MemLatBwThreadPacket) :
    ∃ l, latLoop pkt r = .done l ∧ l.loopCount = r.activeSize / u64 (256 * r.lineSize) := by
  obtain ⟨chkpt, -, hchkpt⟩ := latChkptChases_spec pkt r
  rw [latLoop, divide_eq hne, hchkpt]
  exact ⟨_, rfl, rfl⟩

theorem MemRegion.Tours.passTouchesOnce_iff (h : r.Tours m visit n)
    (hlines : ∀ t, ∃ i j, visit t = r.lineOffset i j) (pkt : MemLatBwThreadPacket) :
    r.PassTouchesOnce m pkt ↔ u64 (256 * r.lineSize) ≠ 0 ∧
      r.activeSize / u64 (256 * r.lineSize) * 256 ≤ n := by
  constructor
  · rintro ⟨l, hl, p, touched, hpass, -, hnodup, -⟩
    have hne : u64 (256 * r.lineSize) ≠ 0 := by
      intro hzero
      rw [latLoop, divide, if_pos hzero] at hl
      cases hl
    obtain ⟨l', hl', hcount⟩ := latLoop_loopCount hne pkt
    rw [hl] at hl'
    cases hl'
    rw [h.latPass_eq] at hpass
    cases hpass
    rw [← hcount]
    exact ⟨hne, (h.cycle.nodup_iff _).1 hnodup⟩
  · rintro ⟨hne, hle⟩
    obtain ⟨l, hl, hcount⟩ := latLoop_loopCount hne pkt
    rw [← hcount] at hle
    refine ⟨l, hl, _, _, h.latPass_eq _, ?_, (h.cycle.nodup_iff _).2 hle, fun o ho => ?_⟩
    · rw [List.length_map, List.length_range]
    · obtain ⟨t, -, rfl⟩ := List.mem_map.1 ho
      exact ⟨h.fits t, hlines t⟩

theorem MemRegion.lineTour_line (r : MemRegion) (σ : Nat → Nat) (n t : Nat) :
    ∃ i j, r.lineTour σ n t = r.lineOffset i j := by
  refine ⟨0, σ (t % n), ?_⟩
  rw [MemRegion.lineOffset, Nat.zero_mul, Nat.zero_add]
  rfl

theorem MemRegion.LineOrder.tour_line {linesInPage : List Nat} {σ : Nat → Nat}
    (h : r.LineOrder linesInPage σ) (hP : 0 < r.numActivePages) (hK : 0 < r.numLinesInPage)
    (t : Nat) : ∃ i j, r.pageTour linesInPage t = r.lineOffset i j := by
  obtain ⟨hi, hj, ht⟩ := tour_index (Nat.mod_lt t (Nat.mul_pos hP hK))
  have hline := h.tour hi hj
  rw [← ht, (r.pageTour_periodic linesInPage).map_mod_nat] at hline
  exact ⟨_, _, hline⟩

theorem MemRegion.initByPattern_tours (hr : r.WellFormed) (h8 : 8 ≤ r.lineSize)
    (hsum : r.activeSize + r.lineSize < 2 ^ 64) (hP : 0 < r.numActivePages)
    (hK : 0 < r.numLinesInPage) {accessPattern : UInt32}
    (h : r.initByPattern accessPattern rand fuel .zeroed = .done m) :
    ∃ visit, r.Tours m visit (r.chainLength accessPattern) ∧
      ∀ t, ∃ i j, visit t = r.lineOffset i j := by
  rw [MemRegion.chainLength]
  by_cases h0 : accessPattern = 0
  · rw [h0, MemRegion.initByPattern_stride] at h
    rw [if_pos h0]
    exact ⟨_, MemRegion.strideInit_tours h8 hsum h, r.lineTour_line _ _⟩
  rw [if_neg h0]
  by_cases h2 : accessPattern = 2
  · rw [h2, MemRegion.initByPattern_region] at h
    have hlines := hr.numActiveLines_eq
    have hM : 0 < r.numActiveLines := by
      rw [hlines]
      exact Nat.mul_pos hP hK
    obtain ⟨σ, -, htours⟩ := MemRegion.allRandomInit_tours hr h8 hM h
    rw [hlines] at htours
    exact ⟨_, htours, r.lineTour_line _ _⟩
  · rw [MemRegion.initByPattern_chunk h0 h2] at h
    obtain ⟨linesInPage, σ, hσ, htours⟩ := MemRegion.pageRandomInit_tours hr h8 hP hK h
    exact ⟨_, htours, hσ.tour_line hP hK⟩

/-- The geometries the constructor makes of lines that hold a pointer, with a whole page. -/
structure MemRegion.Paged (r : MemRegion) : Prop where
  wellFormed : r.WellFormed
  line : 8 ≤ r.lineSize
  pages : 1 ≤ r.numActivePages
  lines : 1 ≤ r.numLinesInPage

theorem MemRegion.Paged.line_le (h : r.Paged) : r.lineSize ≤ r.activeSize := by
  have hlines := h.wellFormed.lines_le
  have hpages := h.wellFormed.pages_le
  have hline : 1 * r.lineSize ≤ r.numLinesInPage * r.lineSize := Nat.mul_le_mul_right _ h.lines
  have hpage : 1 * r.pageSize ≤ r.numActivePages * r.pageSize := Nat.mul_le_mul_right _ h.pages
  omega

theorem MemRegion.Paged.active_add_line (h : r.Paged) (hsize : r.size < 2 ^ 63) :
    r.activeSize + r.lineSize < 2 ^ 64 := by
  have hactive := h.wellFormed.active_le
  have hline := h.line_le
  omega

theorem MemRegion.Paged.of_new {size activeSize pageSize lineSize : UInt64}
    {memType hugepageType : Int} (hactive : activeSize ≤ size) (hline : 8 ≤ lineSize)
    (hnew : MemRegion.new size.toNat activeSize.toNat pageSize.toNat lineSize.toNat
      memType hugepageType = .done r)
    (hK : 1 ≤ r.numLinesInPage) (hP : 1 ≤ r.numActivePages) : r.Paged where
  wellFormed := .of_new size.toNat_lt (UInt64.le_iff_toNat_le.1 hactive) pageSize.toNat_lt hnew
  line := by
    rw [MemRegion.new_lineSize hnew]
    exact UInt64.le_iff_toNat_le.1 hline
  pages := hP
  lines := hK

/-- One timed pass touches no line twice exactly if its calls of the kernel fit the chain. -/
theorem latency_pass_touches_once (size activeSize pageSize lineSize : UInt64)
    (memType hugepageType : Int) (rand : Nat → Nat) (fuel : Nat) (r : MemRegion) (m : Memory)
    (pkt : MemLatBwThreadPacket) (hsize : size.toNat < 2 ^ 63) (hactive : activeSize ≤ size)
    (hline : 8 ≤ lineSize)
    (hnew : MemRegion.new size.toNat activeSize.toNat pageSize.toNat lineSize.toNat
      memType hugepageType = .done r)
    (hK : 1 ≤ r.numLinesInPage) (hP : 1 ≤ r.numActivePages)
    (hret : r.initByPattern pkt.accessPattern rand fuel .zeroed = .done m) :
    r.PassTouchesOnce m pkt ↔ u64 (256 * r.lineSize) ≠ 0 ∧
      r.activeSize / u64 (256 * r.lineSize) * 256 ≤ r.chainLength pkt.accessPattern := by
  have hpaged := MemRegion.Paged.of_new hactive hline hnew hK hP
  have halloc : r.size < 2 ^ 63 := by
    rw [MemRegion.new_done hnew]
    exact hsize
  obtain ⟨visit, htours, hlines⟩ := MemRegion.initByPattern_tours hpaged.wellFormed hpaged.line
    (hpaged.active_add_line halloc) hP hK hret
  exact htours.passTouchesOnce_iff hlines pkt

theorem latency_pass_touches_once_small :
    let r := MemRegion.layout 32768 32768 4096 128 0 0
    let numa := NumaConfig.new ⟨0, 1, 1, fun _ => true, fun _ => 2 ^ 34, fun _ => some fun _ => true⟩
    let pkt := prepareMemLatBwThreadPacket (.byDefault .latency numa) (-1) 1 0
    ∃ m, r.initByPattern pkt.accessPattern (fun _ => 0) 33 .zeroed = .done m ∧
      r.PassTouchesOnce m pkt := by
  intro r numa pkt
  obtain ⟨m, hm⟩ := Run.exists_done (x := r.initByPattern pkt.accessPattern (fun _ => 0) 33 .zeroed)
    (by decide +kernel)
  have honce := latency_pass_touches_once 32768 32768 4096 128 0 0 (fun _ => 0) 33 r m pkt
    (by decide) (by decide) (by decide) rfl (by decide) (by decide) hm
  exact ⟨m, hm, honce.2 (by decide +kernel)⟩

/-- Ten chunks of 3 KiB hold 240 lines, but a pass over the 32 KiB of the region reads 256. -/
theorem latency_pass_wraps :
    let numa := NumaConfig.new ⟨0, 1, 1, fun _ => true, fun _ => 2 ^ 34, fun _ => some fun _ => true⟩
    let config := { Configuration.byDefault .latency numa with regionSizeKb := 32, chunkSizeKb := 3 }
    let pkt := prepareMemLatBwThreadPacket config (-1) 1 0
    Configuration.parseOptions .latency numa
        ["cpu_idle_latency".toList, "-b32".toList, "-c3".toList] = .done (.ok config) ∧
      ∃ r m, memRegionAllocLat (fun _ => 0) 33 pkt = .done (r, m) ∧ 8 ≤ r.lineSize ∧
        1 ≤ r.numActivePages ∧ 1 ≤ r.numLinesInPage ∧ ¬ r.PassTouchesOnce m pkt := by
  intro numa config pkt
  let r := MemRegion.layout 32768 32768 3072 128 0 0
  have hnew : MemRegion.new 32768 32768 3072 128 0 0 = .done r := rfl
  have hpaged : r.Paged :=
    ⟨.of_new (by decide) (Nat.le_refl _) (by decide) hnew, by decide, by decide, by decide⟩
  obtain ⟨m, hm⟩ := Run.exists_done (x := r.initByPattern pkt.accessPattern (fun _ => 0) 33 .zeroed)
    (by decide +kernel)
  have halloc : memRegionAllocLat (fun _ => 0) 33 pkt = .done (r, m) := by
    have hregion : MemRegion.new (pkt.regionSizeKb * 1024).toNat (pkt.regionSizeKb * 1024).toNat
        (pkt.chunkSizeKb * 1024).toNat pkt.strideSizeB.toNat pkt.memType.toInt
        pkt.useHugepage.toInt32.toInt = .done r := by decide +kernel
    rw [memRegionAllocLat, hregion, Run.done_bind, hm]
    rfl
  obtain ⟨visit, htours, hlines⟩ := MemRegion.initByPattern_tours hpaged.wellFormed hpaged.line
    (by decide) hpaged.pages hpaged.lines hm
  refine ⟨by decide +kernel, r, m, halloc, by decide, by decide, by decide, fun honce => ?_⟩
  have hle := ((htours.passTouchesOnce_iff hlines pkt).1 honce).2
  exact absurd hle (by decide +kernel)

end MmMem

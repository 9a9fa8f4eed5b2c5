import MmMem.CopyFragments
import MmMem.LatencyGeometry
import MmMem.Library.EnoughFuel
import MmMem.SequenceTermination

namespace MmMem
open Prog
set_option autoImplicit true

/-- A clock that never runs backwards, and comes to the target before the counters of a measurement
can wrap around. -/
structure Timely (clock : Nat → Int) (targetNs : Int) : Prop where
  mono : Monotone clock
  reaches : ∃ n < 2 ^ 50, targetNs ≤ clock n - clock 0

theorem Timely.of_le {clock : Nat → Int} (h : Timely clock b) (hle : a ≤ b) : Timely clock a := by
  obtain ⟨n, hn, hreach⟩ := h.reaches
  exact ⟨h.mono, n, hn, hle.trans hreach⟩

namespace MeasureLoop

variable {l : MeasureLoop} {clock : Nat → Int} {kernel : Nat → σ → Run ε σ} {restart : σ → σ}

theorem forLoop_ne_running (hk : ∀ i c, kernel i c ≠ .running) (trips i : Nat)
    (s : LoopState σ) : l.forLoop clock kernel trips i s ≠ .running := by
  induction trips generalizing i s with
  | zero => exact Run.done_ne_running
  | succ trips ih =>
    apply Run.bind_ne_running (Run.bind_ne_running (hk i s.cursor) fun _ _ => Run.done_ne_running)
    rintro ⟨broke, t⟩ -
    cases broke with
    | true => exact Run.done_ne_running
    | false => exact ih (i + 1) t

/-- One trip for each call up to the one that breaks the loop is enough. -/
theorem At.whileTrue_ne_running {s : LoopState σ} (h : l.At clock n s)
    (hk : ∀ i c, kernel i c ≠ .running) (hpos : 0 < l.loopCount) (hb : l.BreaksAt clock m)
    (hm : n ≤ m) (hfuel : m - n < fuel) : l.whileTrue clock kernel restart fuel s ≠ .running := by
  induction fuel generalizing n s with
  | zero => omega
  | succ fuel ih =>
    apply Run.bind_ne_running (forLoop_ne_running hk _ _ _)
    rintro ⟨i, t⟩ hf
    rcases (h.rewind (restart s.cursor)).forLoop hf with ⟨-, hlt, -⟩ | ⟨hi, hat⟩
    · dsimp only
      rw [if_pos (by omega)]
      exact Run.done_ne_running
    · dsimp only
      rw [if_neg (by omega)]
      have hle : n + l.loopCount ≤ m := by
        by_contra hgt
        exact hat.before m (by omega) hb
      exact ih hat hle (by omega)

theorem whileTrue_lasts (l : MeasureLoop) (clock : Nat → Int) (kernel : Nat → σ → Run ε σ)
    (restart : σ → σ) (s : LoopState σ) :
    Run.Lasts fun fuel => l.whileTrue clock kernel restart fuel s := by
  intro fuel more s' hle h
  induction fuel generalizing s more with
  | zero => cases h
  | succ fuel ih =>
    obtain ⟨more, rfl⟩ : ∃ k, more = k + 1 := ⟨more - 1, by omega⟩
    obtain ⟨⟨i, t⟩, hf, -⟩ := Run.bind_eq_done.1 h
    dsimp only at h ⊢
    rw [whileTrue_succ hf] at h ⊢
    split
    · next hbroke =>
      rw [if_pos hbroke] at h
      exact h
    · next hall =>
      rw [if_neg hall] at h
      exact ih t more (Nat.le_of_succ_le_succ hle) h

/-- Loops that are free of faults return if a pass calls the kernel and the clock keeps time. -/
theorem Sized.run_returns (h : l.Sized) (hk : ∀ i c, kernel i c ≠ .running)
    (hpos : 0 < l.loopCount) (hclock : Timely clock l.targetDurationNs) (cursor : σ)
    (hsafe : ∀ fuel, Run.Safe P (l.run clock kernel restart fuel cursor)) :
    Run.Returns P fun fuel => l.run clock kernel restart fuel cursor := by
  obtain ⟨n, hn, hreach⟩ := hclock.reaches
  have hunit := h.unit_le
  have hchkpt := h.chkpt
  have hmul : (n + 2) * l.loopUnit ≤ (n + 2) * 2 ^ 13 := Nat.mul_le_mul_left _ hunit
  obtain ⟨m, hb⟩ := exists_breaksAt hclock.mono hreach
    (Tally.exists_passes (n := n) h.unit_pos (by omega))
  refine (whileTrue_lasts l clock kernel restart _).returns hsafe ⟨m + 1, ?_⟩
  exact (At.start l clock cursor).whileTrue_ne_running hk hpos hb (Nat.zero_le m)
    (Nat.lt_succ_of_le (Nat.sub_le m 0))

end MeasureLoop

theorem MemRegion.loadWord_ne_running (r : MemRegion) (offset : Nat) :
    r.loadWord offset ≠ .running := by
  rw [MemRegion.loadWord]
  split
  · exact Run.done_ne_running
  · exact Run.fault_ne_running

theorem MemRegion.loadPointer_ne_running (r : MemRegion) (m : Memory) (offset : Nat) :
    r.loadPointer m offset ≠ .running := by
  rw [MemRegion.loadPointer]
  split
  · split
    · exact Run.done_ne_running
    · exact Run.fault_ne_running
  · exact Run.fault_ne_running

theorem kernelLat_ne_running (r : MemRegion) (m : Memory) (p : Nat) :
    kernelLat r m p ≠ .running := by
  apply Run.bind_ne_running (Run.loop_ne_running (fun _ => r.loadPointer_ne_running m) _ _ _)
  intro p _
  exact Run.bind_ne_running (r.loadWord_ne_running p) fun _ _ => Run.done_ne_running

theorem glibcMemcpy_ne_running (dst src : MemRegion) (dstOffset srcOffset n : Nat) (b : Buffers) :
    glibcMemcpy dst src dstOffset srcOffset n b ≠ .running := by
  rw [glibcMemcpy]
  split
  · exact Run.fault_ne_running
  · split
    · exact Run.fault_ne_running
    · exact Run.done_ne_running

theorem latPtr_returns {r : MemRegion} {pkt : MemLatBwThreadPacket} (h : r.Chased m)
    (hcall : 256 * r.lineSize ≤ r.activeSize) (hclock : Timely clock pkt.targetDurationNs) :
    Run.Returns (fun _ => True) fun fuel => latPtr (kernelLat r m) 0 clock fuel pkt r := by
  obtain ⟨hpos, hlt, -⟩ := id h
  obtain ⟨l, hl, hsized, htarget, hcount⟩ := latLoop_spec pkt hpos hlt
  have hsafe fuel := latPtr_safe h clock fuel pkt
  simp only [latPtr, hl, Run.done_bind] at hsafe ⊢
  have hcalls : 0 < l.loopCount := by
    rw [hcount]
    exact Nat.div_pos hcall (by omega)
  exact hsized.run_returns (fun _ => kernelLat_ne_running r m) hcalls (htarget ▸ hclock) 0 hsafe

theorem copyFragment_returns {pkt : MemLatBwThreadPacket} (h : CopySetup pkt dst src)
    (hclock : Timely clock pkt.targetDurationNs) (start : Buffers) :
    Run.Returns (fun _ => True) fun fuel =>
      copyFragment (glibcMemcpy dst src) clock fuel pkt dst start := by
  obtain ⟨l, hl, hsized, htarget, hcount⟩ := memcpyLoop_spec pkt dst h.positive
  have hsafe fuel := (h.copyFragment_tiled clock fuel start).mono fun _ _ => trivial
  simp only [copyFragment, hl, Run.done_bind] at hsafe ⊢
  have hcalls : 0 < l.loopCount := by
    rw [hcount]
    exact Nat.div_pos h.fits h.positive
  exact hsized.run_returns (fun _ => glibcMemcpy_ne_running dst src _ _ _) hcalls
    (htarget ▸ hclock) start hsafe

theorem startAtZero_lasts (size i : Nat) (s : List Nat) :
    Run.Lasts fun fuel => startAtZero size fuel i s := by
  intro fuel more s' hle h
  induction fuel generalizing i more with
  | zero => cases h
  | succ fuel ih =>
    obtain ⟨more, rfl⟩ : ∃ k, more = k + 1 := ⟨more - 1, by omega⟩
    dsimp only at h ⊢
    rw [startAtZero] at h ⊢
    split
    · next hlt =>
      rw [if_pos hlt] at h
      obtain ⟨x, hx, h⟩ := Run.bind_eq_done.1 h
      rw [hx, Run.done_bind]
      split
      · next hzero =>
        rw [if_pos hzero] at h
        exact h
      · next hne =>
        rw [if_neg hne] at h
        exact ih _ more (Nat.le_of_succ_le_succ hle) h
    · next hend =>
      rw [if_neg hend] at h
      exact h

theorem randomizeSequence_lasts (rand : Nat → Nat) (s : List Nat) (size unit : Nat)
    (inOrder : Bool) :
    Run.Lasts fun fuel => randomizeSequence rand fuel s size unit inOrder := by
  apply (Run.Lasts.const _).bind
  intro s
  cases inOrder with
  | true => exact .const _
  | false => exact (Run.Lasts.const _).bind fun t => startAtZero_lasts size 1 t.sequence

theorem shuffle_ends (rand : Nat → Nat) (hpos : 0 < size) (hle : size ≤ 2 ^ 32)
    (hu : size * unit < 2 ^ 64) :
    randomizeSequence rand (2 ^ 32 + 1) (List.replicate size 0) size unit false ≠ .running :=
  randomizeSequence_found (Nat.le_of_eq List.length_replicate.symm) hpos (by omega) hu
    fun _ hi hbig => absurd hi (by omega)

namespace MemRegion

variable {r : MemRegion}

theorem strideLoop_lasts (r : MemRegion) (i : Nat) (m : Memory) :
    Run.Lasts fun fuel => r.strideLoop fuel i m := by
  intro fuel more p hle h
  induction fuel generalizing i m more with
  | zero => cases h
  | succ fuel ih =>
    obtain ⟨more, rfl⟩ : ∃ k, more = k + 1 := ⟨more - 1, by omega⟩
    dsimp only at h ⊢
    rw [strideLoop] at h ⊢
    split
    · next hlt =>
      rw [if_pos hlt] at h
      obtain ⟨m', hm', h⟩ := Run.bind_eq_done.1 h
      rw [hm', Run.done_bind]
      exact ih _ _ more (Nat.le_of_succ_le_succ hle) h
    · next hend =>
      rw [if_neg hend] at h
      exact h

theorem initByPattern_lasts (r : MemRegion) (accessPattern : UInt32) (rand : Nat → Nat)
    (m : Memory) : Run.Lasts fun fuel => r.initByPattern accessPattern rand fuel m := by
  have hpage : Run.Lasts fun fuel => r.pageRandomInit rand fuel m := by
    apply (randomizeSequence_lasts rand _ _ _ true).bind
    intro pages
    apply (randomizeSequence_lasts rand _ _ _ false).bind
    exact fun lines => .const _
  by_cases h0 : accessPattern = 0
  · simp only [h0, initByPattern_stride]
    exact (r.strideLoop_lasts _ _).bind fun p => .const _
  by_cases h2 : accessPattern = 2
  · simp only [h2, initByPattern_region]
    exact (randomizeSequence_lasts rand _ _ _ false).bind fun lines => .const _
  · simp only [initByPattern_chunk h0 h2]
    exact hpage

/-- Every shuffle of an initializer stays within the reach of its counter. -/
structure Reached (r : MemRegion) (accessPattern : UInt32) : Prop where
  lines : accessPattern = 2 → r.numActiveLines ≤ 2 ^ 32
  linesInPage : r.numLinesInPage ≤ 2 ^ 32

theorem WellFormed.pageRandomInit_ends (hr : r.WellFormed) (hK : 0 < r.numLinesInPage)
    (hle : r.numLinesInPage ≤ 2 ^ 32) (rand : Nat → Nat) : r.pageRandomInit rand (2 ^ 32 + 1) .zeroed ≠ .running := by
  have hlines := hr.lines_le
  have hpage := hr.page_lt
  have hfound := shuffle_ends rand hK hle (show r.numLinesInPage * r.lineSize < 2 ^ 64 by omega)
  rcases pageRandomInit_tour hr hK rand (2 ^ 32 + 1) with ⟨hrun, -⟩ | ⟨lines, σ, -, htour⟩
  · exact absurd hrun hfound
  · rw [htour]
    exact storeTour_ne_running

theorem WellFormed.allRandomInit_ends (hr : r.WellFormed) (hM : 0 < r.numActiveLines)
    (hle : r.numActiveLines ≤ 2 ^ 32) (rand : Nat → Nat) :
    r.allRandomInit rand (2 ^ 32 + 1) .zeroed ≠ .running := by
  have hlines := hr.activeLines_le
  have hactive := hr.active_le
  have hsize := hr.size_lt
  have hfound := shuffle_ends rand hM hle (show r.numActiveLines * r.lineSize < 2 ^ 64 by omega)
  rcases allRandomInit_tour hr hM rand (2 ^ 32 + 1) with ⟨hrun, -⟩ | ⟨σ, -, htour⟩
  · exact absurd hrun hfound
  · rw [htour]
    exact storeTour_ne_running

/-- Every initializer of a safe region returns, and leaves a chase safe. -/
theorem Plain.initByPattern_returns (h : r.Plain) {accessPattern : UInt32}
    (hc : r.Chaseable accessPattern) (hreached : r.Reached accessPattern) (rand : Nat → Nat) :
    Run.Returns r.Chased fun fuel => r.initByPattern accessPattern rand fuel .zeroed := by
  apply (r.initByPattern_lasts accessPattern rand .zeroed).returns (h.initByPattern_safe hc rand)
  rw [Chaseable] at hc
  by_cases h0 : accessPattern = 0
  · rw [h0]
    refine ⟨2 ^ 64, ?_⟩
    rw [initByPattern_stride]
    exact h.wellFormed.strideInit_ne_running h.active_add_line (Nat.le_refl _)
  rw [if_neg h0] at hc
  refine ⟨2 ^ 32 + 1, ?_⟩
  by_cases h2 : accessPattern = 2
  · rw [if_pos h2] at hc
    rw [h2, initByPattern_region]
    exact h.wellFormed.allRandomInit_ends hc.1 (hreached.lines h2) rand
  · rw [if_neg h2] at hc
    rw [initByPattern_chunk h0 h2]
    exact h.wellFormed.pageRandomInit_ends hc.1 hreached.linesInPage rand

end MemRegion

end MmMem

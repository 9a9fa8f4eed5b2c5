import MmMem.MemRegionInit
import MmMem.WorkerLoops

namespace MmMem
open Prog
set_option autoImplicit true

variable {r : MemRegion} {m : Memory}

theorem MemRegion.loadPointer_eq (h : o + 8 ≤ r.size) (hm : m.slot o = some target) :
    r.loadPointer m o = .done target := by
  rw [MemRegion.loadPointer, if_pos h, hm]

theorem MemRegion.loadPointer_fault (hm : m.slot o = none) :
    ∃ e, r.loadPointer m o = .fault e := by
  rw [MemRegion.loadPointer, hm]
  split
  · exact ⟨_, rfl⟩
  · exact ⟨_, rfl⟩

theorem kernelLat_ring {visit : Nat → Nat}
    (h : ∀ t, visit t + 8 ≤ r.size ∧ m.slot (visit t) = some (visit (t + 1))) (t : Nat) :
    kernelLat r m (visit t) = .done (visit (t + 256)) := by
  have hchase : ∀ n, Run.loop (fun _ p => r.loadPointer m p) n 0 (visit t) =
      .done (visit (t + n)) := by
    intro n
    induction n with
    | zero => rfl
    | succ n ih =>
      rw [Run.loop_succ, ih, Run.done_bind, MemRegion.loadPointer_eq (h (t + n)).1 (h (t + n)).2]
      rfl
  rw [kernelLat, hchase, Run.done_bind, MemRegion.loadWord, if_pos (h (t + 256)).1]
  rfl

/-- What `lat_ptr` relies on: no call of the kernel, or a ring to chase. -/
def MemRegion.Chased (r : MemRegion) (m : Memory) : Prop :=
  0 < r.lineSize ∧ r.lineSize < 2 ^ 32 ∧ (r.activeSize < 256 * r.lineSize ∨ r.Ring m)

theorem latPtr_safe (h : r.Chased m) (clock : Nat → Int) (fuel : Nat)
    (pkt : MemLatBwThreadPacket) :
    Run.Safe (fun _ => True) (latPtr (kernelLat r m) 0 clock fuel pkt r) := by
  obtain ⟨hpos, hlt, hring⟩ := h
  obtain ⟨l, hl, -, -, hcount⟩ := latLoop_spec pkt hpos hlt
  rw [latPtr, hl, Run.done_bind]
  rcases hring with hsmall | ⟨visit, hzero, hvisit⟩
  · have hnone : l.loopCount = 0 := by rw [hcount, Nat.div_eq_of_lt hsmall]
    apply MeasureLoop.run_safe (I := fun _ _ => True) (fun _ => trivial)
    intro i hi
    omega
  · apply MeasureLoop.run_safe (I := fun _ p => ∃ t, p = visit t) (fun _ => ⟨0, hzero.symm⟩)
    rintro i - _ ⟨t, rfl⟩
    rw [kernelLat_ring hvisit t]
    exact .done ⟨_, rfl⟩

theorem latPtr_fault (hpos : 0 < r.lineSize) (hlt : r.lineSize < 2 ^ 32)
    (hcall : 256 * r.lineSize ≤ r.activeSize) (hm : m.slot 0 = none) (clock : Nat → Int)
    (fuel : Nat) (pkt : MemLatBwThreadPacket) :
    ∃ e, latPtr (kernelLat r m) 0 clock (fuel + 1) pkt r = .fault e := by
  obtain ⟨l, hl, -, -, hcount⟩ := latLoop_spec pkt hpos hlt
  obtain ⟨e, he⟩ := MemRegion.loadPointer_fault (r := r) hm
  have hkernel : kernelLat r m 0 = .fault e := by
    rw [kernelLat]
    change ((r.loadPointer m 0 >>= _) >>= _) = _
    rw [he]
    rfl
  have hcalls : 0 < l.loopCount := by
    rw [hcount]
    exact Nat.div_pos hcall (by omega)
  rw [latPtr, hl, Run.done_bind]
  exact ⟨e, MeasureLoop.run_fault hcalls hkernel⟩

/-- The region is too small for a call of `kernel_lat`, so that no pointer is chased. -/
def MemRegion.NeverChased (r : MemRegion) : Prop := r.activeSize < 256 * r.lineSize

instance (r : MemRegion) : Decidable r.NeverChased := inferInstanceAs (Decidable (_ < _))

/-- The regions the initializer of an access pattern and the chase behind it are safe on. -/
def MemRegion.Chaseable (r : MemRegion) (accessPattern : UInt32) : Prop :=
  if accessPattern = 0 then 8 ≤ (r.activeSize - 1) % r.lineSize + 1
  else if accessPattern = 2 then
    0 < r.numActiveLines ∧
      (8 ≤ r.lineSize ∨ (r.numActiveLines - 1) * r.lineSize + 8 ≤ r.size ∧ r.NeverChased)
  else
    0 < r.numLinesInPage ∧ (r.numActivePages = 0 → r.NeverChased) ∧
      (0 < r.numActivePages → 8 ≤ r.lineSize ∨ r.LastSlotFits ∧ r.NeverChased)

instance (r : MemRegion) (accessPattern : UInt32) : Decidable (r.Chaseable accessPattern) :=
  inferInstanceAs (Decidable (if accessPattern = 0 then _ else if accessPattern = 2 then _ else _))

/-- The regions of the latency workers. -/
structure MemRegion.Plain (r : MemRegion) : Prop where
  wellFormed : r.WellFormed
  size : r.size = r.activeSize
  allocated : r.size < 2 ^ 63
  line_lt : r.lineSize < 2 ^ 32
  page_le : 1024 ≤ r.pageSize

theorem MemRegion.Plain.active_add_line (h : r.Plain) : r.activeSize + r.lineSize < 2 ^ 64 := by
  have hsize := h.allocated
  have hline := h.line_lt
  rw [h.size] at hsize
  omega

theorem MemRegion.Plain.two_le_lines (h : r.Plain) (h8 : r.lineSize < 8) :
    2 ≤ r.numLinesInPage := by
  have hpage := h.page_le
  rw [h.wellFormed.lines, Nat.le_div_iff_mul_le h.wellFormed.line_pos]
  omega

theorem MemRegion.Plain.chased_of_never (h : r.Plain) (hn : r.NeverChased) : r.Chased m :=
  ⟨h.wellFormed.line_pos, h.line_lt, .inl hn⟩

theorem MemRegion.Plain.chased_of_ring (h : r.Plain) (hring : r.Ring m) : r.Chased m :=
  ⟨h.wellFormed.line_pos, h.line_lt, .inr hring⟩

/-- The last line the stride reaches lies `activeSize - 1` rounded down to a line. -/
theorem MemRegion.Plain.stride_fits (h : r.Plain) :
    (r.numStrides - 1) * r.lineSize + 8 ≤ r.size ↔ 8 ≤ (r.activeSize - 1) % r.lineSize + 1 := by
  have hdiv := Nat.div_add_mod' (r.activeSize - 1) r.lineSize
  have hmod : (r.activeSize - 1) % r.lineSize ≤ r.activeSize - 1 := Nat.mod_le _ _
  rw [MemRegion.numStrides, Nat.add_sub_cancel, h.size]
  omega

theorem MemRegion.Plain.strideInit_safe (h : r.Plain)
    (hfits : 8 ≤ (r.activeSize - 1) % r.lineSize + 1) (fuel : Nat) :
    Run.Safe r.Chased (r.strideInit fuel .zeroed) := by
  have hpos := h.wellFormed.line_pos
  have harr := Arranges.id r.numStrides
  have hn : 0 < r.numStrides := Nat.succ_pos _
  have hslots := (harr.lineTour_fits hn).2 (h.stride_fits.2 hfits)
  have h8 : 8 ≤ r.lineSize := by
    have hmod := Nat.mod_lt (r.activeSize - 1) hpos
    omega
  rw [MemRegion.strideInit_tour hpos h.active_add_line]
  split
  · rw [MemRegion.storeTour_eq hslots]
    exact .done (h.chased_of_ring (harr.ring h8 hn hslots))
  · rw [MemRegion.storeTour_eq fun t ht => hslots t (by omega)]
    exact .running

theorem MemRegion.Plain.pageRandomInit_safe (h : r.Plain) (hK : 0 < r.numLinesInPage)
    (hempty : r.numActivePages = 0 → r.NeverChased)
    (hfits : 0 < r.numActivePages → 8 ≤ r.lineSize ∨ r.LastSlotFits ∧ r.NeverChased)
    (rand : Nat → Nat) (fuel : Nat) :
    Run.Safe r.Chased (r.pageRandomInit rand fuel .zeroed) := by
  rcases MemRegion.pageRandomInit_tour h.wellFormed hK rand fuel with
    ⟨-, hrun⟩ | ⟨linesInPage, σ, hσ, htour⟩
  · rw [hrun]
    exact .running
  · rw [htour]
    rcases Nat.eq_zero_or_pos r.numActivePages with hP | hP
    · rw [hP, Nat.zero_mul]
      exact .done (h.chased_of_never (hempty hP))
    · have hlast : r.LastSlotFits := (hfits hP).elim
        (fun h8 => h.wellFormed.lastSlotFits h8 hK hP) fun hsmall => hsmall.1
      have hslots : ∀ t < r.numActivePages * r.numLinesInPage,
          r.pageTour linesInPage t + 8 ≤ r.size := hσ.tour_fits hlast
      rw [MemRegion.storeTour_eq hslots, Run.safe_done]
      rcases hfits hP with h8 | ⟨-, hnever⟩
      · apply h.chased_of_ring
        exact .of_tour (Nat.mul_pos hP hK) (hσ.tour_zero hP hK) (r.pageTour_periodic linesInPage)
          hslots fun t ht k hk hne => hσ.tour_apart h.wellFormed h8 ht hk hne
      · exact h.chased_of_never hnever

theorem MemRegion.Plain.allRandomInit_safe (h : r.Plain) (hM : 0 < r.numActiveLines)
    (hfits : 8 ≤ r.lineSize ∨ (r.numActiveLines - 1) * r.lineSize + 8 ≤ r.size ∧ r.NeverChased)
    (rand : Nat → Nat) (fuel : Nat) :
    Run.Safe r.Chased (r.allRandomInit rand fuel .zeroed) := by
  rcases MemRegion.allRandomInit_tour h.wellFormed hM rand fuel with ⟨-, hrun⟩ | ⟨σ, hσ, htour⟩
  · rw [hrun]
    exact .running
  · have hlast : (r.numActiveLines - 1) * r.lineSize + 8 ≤ r.size := by
      rcases hfits with h8 | ⟨hlast, -⟩
      · have hlines := h.wellFormed.activeLines_le
        have hle : r.lineSize ≤ r.numActiveLines * r.lineSize := Nat.le_mul_of_pos_left _ hM
        rw [Nat.sub_mul, Nat.one_mul, h.size]
        omega
      · exact hlast
    have hslots := (hσ.lineTour_fits hM).2 hlast
    rw [htour, MemRegion.storeTour_eq hslots, Run.safe_done]
    rcases hfits with h8 | ⟨-, hnever⟩
    · exact h.chased_of_ring (hσ.ring h8 hM hslots)
    · exact h.chased_of_never hnever

/-- On a safe region every initializer returns without a fault, and leaves a chase safe. -/
theorem MemRegion.Plain.initByPattern_safe (h : r.Plain) {accessPattern : UInt32}
    (hc : r.Chaseable accessPattern) (rand : Nat → Nat) (fuel : Nat) :
    Run.Safe r.Chased (r.initByPattern accessPattern rand fuel .zeroed) := by
  rw [MemRegion.Chaseable] at hc
  by_cases h0 : accessPattern = 0
  · rw [if_pos h0] at hc
    rw [h0, MemRegion.initByPattern_stride]
    exact h.strideInit_safe hc fuel
  rw [if_neg h0] at hc
  by_cases h2 : accessPattern = 2
  · rw [if_pos h2] at hc
    rw [h2, MemRegion.initByPattern_region]
    exact h.allRandomInit_safe hc.1 hc.2 rand fuel
  · rw [if_neg h2] at hc
    rw [MemRegion.initByPattern_chunk h0 h2]
    exact h.pageRandomInit_safe hc.1 hc.2.1 hc.2.2 rand fuel

/-- What the region and its memory must be for the chase not to fault, once it is initialised. -/
def MemRegion.StartKept (r : MemRegion) (m : Memory) : Prop :=
  r.NeverChased ∨ ∃ target, m.slot 0 = some target

theorem MemRegion.StartKept.never (h : r.StartKept m) (hm : m.slot 0 = none) : r.NeverChased := by
  rcases h with hnever | ⟨target, hslot⟩
  · exact hnever
  · rw [hm] at hslot
    cases hslot

theorem MemRegion.Plain.stride_done (h : r.Plain) (hi : r.strideInit fuel .zeroed = .done m) :
    8 ≤ (r.activeSize - 1) % r.lineSize + 1 := by
  rw [MemRegion.strideInit_tour h.wellFormed.line_pos h.active_add_line] at hi
  split at hi
  · obtain ⟨hslots, -⟩ := MemRegion.storeTour_done hi
    exact h.stride_fits.1 (((Arranges.id r.numStrides).lineTour_fits (Nat.succ_pos _)).1 hslots)
  · obtain ⟨m', -, hrun⟩ := Run.bind_eq_done.1 hi
    cases hrun

theorem MemRegion.pageRandomInit_noLines (hr : r.WellFormed) (hK : r.numLinesInPage = 0)
    (rand : Nat → Nat) (fuel : Nat) :
    r.pageRandomInit rand fuel .zeroed = .fault .divideByZero := by
  rw [MemRegion.pageRandomInit_eq hr, hK]
  rfl

theorem MemRegion.allRandomInit_noLines (hM : r.numActiveLines = 0) (rand : Nat → Nat)
    (fuel : Nat) : r.allRandomInit rand fuel .zeroed = .fault .divideByZero := by
  rw [MemRegion.allRandomInit]
  simp only [hM]
  rfl

theorem MemRegion.LineOrder.tour_destroyed {linesInPage : List Nat} {σ : Nat → Nat}
    (h : r.LineOrder linesInPage σ) (hr : r.WellFormed) (hP : 0 < r.numActivePages)
    (hK : 2 ≤ r.numLinesInPage) (h8 : r.lineSize < 8) :
    (Memory.tour (r.pageTour linesInPage) (r.numActivePages * r.numLinesInPage)).slot 0 = none := by
  have hpos := hr.line_pos
  have hzero : r.pageTour linesInPage 0 = 0 := h.tour_zero hP (by omega)
  obtain ⟨j, hj, he⟩ := h.surj 1 (by omega)
  have hjpos : 0 < j := by
    apply Nat.pos_of_ne_zero
    rintro rfl
    rw [h.first] at he
    omega
  have hline : r.pageTour linesInPage j = r.lineSize := by
    have ht := h.tour hP hj
    rwa [Nat.zero_mul, Nat.zero_add, he, MemRegion.lineOffset, Nat.zero_mul, Nat.zero_add,
      Nat.one_mul] at ht
  rw [← hzero]
  apply Memory.tour_slot_destroyed (j := j) _ hjpos
  · have hlt := tour_index_lt hP hj
    rwa [Nat.zero_mul, Nat.zero_add] at hlt
  · rw [hzero, hline]
    rintro (hap | hap) <;> omega
  · intro t ht htn heq
    obtain ⟨hi, hk, hte⟩ := tour_index htn
    rw [hzero, hte, h.tour hi hk, MemRegion.lineOffset] at heq
    have hpage : t / r.numLinesInPage = 0 :=
      (Nat.mul_eq_zero.1 (show t / r.numLinesInPage * r.pageSize = 0 by omega)).resolve_right
        (Nat.ne_of_gt hr.page_pos)
    have hσ : σ (t % r.numLinesInPage) = 0 :=
      (Nat.mul_eq_zero.1 (show σ (t % r.numLinesInPage) * r.lineSize = 0 by omega)).resolve_right
        (Nat.ne_of_gt hpos)
    have hmod := h.inj _ hk 0 (by omega) (hσ.trans h.first.symm)
    rw [hpage, hmod] at hte
    omega

theorem MemRegion.Plain.page_done (h : r.Plain)
    (hi : r.pageRandomInit rand fuel .zeroed = .done m) (hm : r.StartKept m) :
    0 < r.numLinesInPage ∧ (r.numActivePages = 0 → r.NeverChased) ∧
      (0 < r.numActivePages → 8 ≤ r.lineSize ∨ r.LastSlotFits ∧ r.NeverChased) := by
  have hK : 0 < r.numLinesInPage := by
    apply Nat.pos_of_ne_zero
    intro hK
    rw [MemRegion.pageRandomInit_noLines h.wellFormed hK] at hi
    cases hi
  rcases MemRegion.pageRandomInit_tour h.wellFormed hK rand fuel with
    ⟨-, hrun⟩ | ⟨linesInPage, σ, hσ, htour⟩
  · rw [hrun] at hi
    cases hi
  · rw [htour] at hi
    obtain ⟨hslots, rfl⟩ := MemRegion.storeTour_done hi
    refine ⟨hK, fun hP => ?_, fun hP => ?_⟩
    · rw [hP, Nat.zero_mul] at hm
      exact hm.never rfl
    · by_cases h8 : 8 ≤ r.lineSize
      · exact .inl h8
      · refine .inr ⟨?_, hm.never (hσ.tour_destroyed h.wellFormed hP (h.two_le_lines (by omega))
          (by omega))⟩
        obtain ⟨j, hj, he⟩ := hσ.surj (r.numLinesInPage - 1) (by omega)
        have hlast := hslots _ (tour_index_lt (i := r.numActivePages - 1) (by omega) hj)
        rwa [hσ.tour (by omega) hj, he] at hlast

theorem MemRegion.Plain.all_done (h : r.Plain)
    (hi : r.allRandomInit rand fuel .zeroed = .done m) (hm : r.StartKept m) :
    0 < r.numActiveLines ∧
      (8 ≤ r.lineSize ∨ (r.numActiveLines - 1) * r.lineSize + 8 ≤ r.size ∧ r.NeverChased) := by
  have hM : 0 < r.numActiveLines := by
    apply Nat.pos_of_ne_zero
    intro hM
    rw [MemRegion.allRandomInit_noLines hM] at hi
    cases hi
  rcases MemRegion.allRandomInit_tour h.wellFormed hM rand fuel with ⟨-, hrun⟩ | ⟨σ, hσ, htour⟩
  · rw [hrun] at hi
    cases hi
  · rw [htour] at hi
    obtain ⟨hslots, rfl⟩ := MemRegion.storeTour_done hi
    refine ⟨hM, ?_⟩
    by_cases h8 : 8 ≤ r.lineSize
    · exact .inl h8
    · have hP : 0 < r.numActivePages := by
        apply Nat.pos_of_ne_zero
        intro hP
        rw [h.wellFormed.numActiveLines_eq, hP, Nat.zero_mul] at hM
        omega
      have hlines : 2 ≤ r.numActiveLines := by
        rw [h.wellFormed.numActiveLines_eq]
        exact Nat.le_trans (h.two_le_lines (by omega)) (Nat.le_mul_of_pos_left _ hP)
      exact .inr ⟨(hσ.lineTour_fits hM).1 hslots,
        hm.never (hσ.lineTour_destroyed h.wellFormed.line_pos (by omega) hlines)⟩

/-- An initializer that has returned, with a start that can be chased, had a safe region. -/
theorem MemRegion.Plain.initByPattern_done (h : r.Plain) {accessPattern : UInt32}
    (hi : r.initByPattern accessPattern rand fuel .zeroed = .done m) (hm : r.StartKept m) :
    r.Chaseable accessPattern := by
  rw [MemRegion.Chaseable]
  by_cases h0 : accessPattern = 0
  · rw [h0, MemRegion.initByPattern_stride] at hi
    rw [if_pos h0]
    exact h.stride_done hi
  rw [if_neg h0]
  by_cases h2 : accessPattern = 2
  · rw [h2, MemRegion.initByPattern_region] at hi
    rw [if_pos h2]
    exact h.all_done hi hm
  · rw [MemRegion.initByPattern_chunk h0 h2] at hi
    rw [if_neg h2]
    exact h.page_done hi hm

theorem MemRegion.WellFormed.pageRandomInit_quiet (hr : r.WellFormed) (hfuel : 2 ^ 32 ≤ fuel) :
    r.pageRandomInit quietRand fuel .zeroed ≠ .running := by
  rcases Nat.eq_zero_or_pos r.numLinesInPage with hK | hK
  · rw [MemRegion.pageRandomInit_noLines hr hK]
    exact nofun
  · have hlines := hr.lines_le
    have hpagelt := hr.page_lt
    have hquiet := randomizeSequence_quiet r.lineSize hK hr.lines_lt (by omega) hfuel
    rcases MemRegion.pageRandomInit_tour hr hK quietRand fuel with
      ⟨hrun, -⟩ | ⟨linesInPage, σ, -, htour⟩
    · exact absurd hrun hquiet
    · rw [htour]
      exact MemRegion.storeTour_ne_running

theorem MemRegion.WellFormed.allRandomInit_quiet (hr : r.WellFormed) (hsize : r.size < 2 ^ 63)
    (hfuel : 2 ^ 32 ≤ fuel) : r.allRandomInit quietRand fuel .zeroed ≠ .running := by
  have hactive := hr.active_le
  rcases Nat.eq_zero_or_pos r.numActiveLines with hM | hM
  · rw [MemRegion.allRandomInit_noLines hM]
    exact nofun
  · have hlines := hr.activeLines_le
    have hquiet := randomizeSequence_quiet r.lineSize hM (u64_lt _) (by omega) hfuel
    rcases MemRegion.allRandomInit_tour hr hM quietRand fuel with ⟨hrun, -⟩ | ⟨σ, -, htour⟩
    · exact absurd hrun hquiet
    · rw [htour]
      exact MemRegion.storeTour_ne_running

theorem MemRegion.WellFormed.strideInit_ne_running (hr : r.WellFormed)
    (hsum : r.activeSize + r.lineSize < 2 ^ 64) (hfuel : 2 ^ 64 ≤ fuel) :
    r.strideInit fuel .zeroed ≠ .running := by
  have hle : (r.activeSize - 1) / r.lineSize ≤ r.activeSize - 1 := Nat.div_le_self _ _
  rw [MemRegion.strideInit_tour hr.line_pos hsum, if_pos (by rw [MemRegion.numStrides]; omega)]
  exact MemRegion.storeTour_ne_running

theorem MemRegion.WellFormed.initByPattern_quiet (hr : r.WellFormed) (hsize : r.size < 2 ^ 63)
    (hsum : r.activeSize + r.lineSize < 2 ^ 64) (accessPattern : UInt32) (hfuel : 2 ^ 64 ≤ fuel) :
    r.initByPattern accessPattern quietRand fuel .zeroed ≠ .running := by
  by_cases h0 : accessPattern = 0
  · rw [h0, MemRegion.initByPattern_stride]
    exact hr.strideInit_ne_running hsum hfuel
  by_cases h2 : accessPattern = 2
  · rw [h2, MemRegion.initByPattern_region]
    exact hr.allRandomInit_quiet hsize (by omega)
  · rw [MemRegion.initByPattern_chunk h0 h2]
    exact hr.pageRandomInit_quiet (by omega)

end MmMem

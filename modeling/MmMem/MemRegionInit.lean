import MmMem.MemRegionChain

namespace MmMem
open Prog
set_option autoImplicit true

/-- A bijection of the indices below `n` that keeps zero first. -/
structure Arranges (n : Nat) (σ : Nat → Nat) : Prop where
  lt : ∀ j < n, σ j < n
  inj : ∀ i < n, ∀ j < n, σ i = σ j → i = j
  surj : ∀ k < n, ∃ j < n, σ j = k
  first : σ 0 = 0

theorem Arranges.id (n : Nat) : Arranges n id :=
  ⟨fun _ h => h, fun _ _ _ _ h => h, fun k hk => ⟨k, hk, rfl⟩, rfl⟩

theorem Arranges.of_shuffled (hu : 0 < unit) (hn : 0 < n) (h : Shuffled n n unit s)
    (h0 : s[0]? = some 0) : ∃ σ, Arranges n σ ∧ ∀ j < n, s.getD j 0 = σ j * unit := by
  obtain ⟨σ, hσ, hinj, hsurj⟩ := h.order hu
  refine ⟨σ, ⟨fun j hj => (hσ j hj).1, hinj, hsurj, ?_⟩, fun j hj => (hσ j hj).2⟩
  have hz := (hσ 0 hn).2
  rw [List.getD_eq_getElem?_getD, h0, Option.getD_some] at hz
  exact (Nat.mul_eq_zero.1 hz.symm).resolve_right (Nat.pos_iff_ne_zero.1 hu)

variable {r : MemRegion} {σ : Nat → Nat} {n : Nat}

/-- The closed tour of `n` lines in the given order. -/
def MemRegion.lineTour (r : MemRegion) (σ : Nat → Nat) (n t : Nat) : Nat := σ (t % n) * r.lineSize

theorem MemRegion.lineTour_periodic (r : MemRegion) (σ : Nat → Nat) (n : Nat) :
    Function.Periodic (r.lineTour σ n) n := by
  intro t
  rw [MemRegion.lineTour, MemRegion.lineTour, Nat.add_mod_right]

theorem MemRegion.lineTour_eq (h : t < n) : r.lineTour σ n t = σ t * r.lineSize := by
  rw [MemRegion.lineTour, Nat.mod_eq_of_lt h]

theorem MemRegion.lineTour_close (r : MemRegion) (σ : Nat → Nat) (n : Nat) :
    r.lineTour σ n n = r.lineTour σ n 0 := by
  rw [MemRegion.lineTour, MemRegion.lineTour, Nat.mod_self, Nat.zero_mod]

theorem Arranges.lineTour_zero (h : Arranges n σ) : r.lineTour σ n 0 = 0 := by
  rw [MemRegion.lineTour, Nat.zero_mod, h.first, Nat.zero_mul]

theorem Arranges.lineTour_apart (h : Arranges n σ) (h8 : 8 ≤ r.lineSize) (hi : i < n) (hj : j < n)
    (hne : i ≠ j) : Apart (r.lineTour σ n i) (r.lineTour σ n j) := by
  rw [MemRegion.lineTour_eq hi, MemRegion.lineTour_eq hj]
  exact .of_mul h8 fun he => hne (h.inj i hi j hj he)

theorem Arranges.lineTour_fits (h : Arranges n σ) (hn : 0 < n) :
    (∀ t < n, r.lineTour σ n t + 8 ≤ r.size) ↔ (n - 1) * r.lineSize + 8 ≤ r.size := by
  constructor
  · intro hfits
    obtain ⟨j, hj, he⟩ := h.surj (n - 1) (by omega)
    have hlast := hfits j hj
    rwa [MemRegion.lineTour_eq hj, he] at hlast
  · intro hlast t ht
    have hlt := h.lt t ht
    have hle : σ t * r.lineSize ≤ (n - 1) * r.lineSize := Nat.mul_le_mul_right _ (by omega)
    rw [MemRegion.lineTour_eq ht]
    omega

/-- Under 8 bytes a line, the slot of line one destroys the pointer of the start. -/
theorem Arranges.lineTour_destroyed (h : Arranges n σ) (hpos : 0 < r.lineSize)
    (h8 : r.lineSize < 8) (hn : 2 ≤ n) :
    (Memory.tour (r.lineTour σ n) n).slot 0 = none := by
  have hzero : r.lineTour σ n 0 = 0 := h.lineTour_zero
  obtain ⟨j, hj, he⟩ := h.surj 1 (by omega)
  have hjpos : 0 < j := by
    apply Nat.pos_of_ne_zero
    rintro rfl
    rw [h.first] at he
    omega
  rw [← hzero]
  apply Memory.tour_slot_destroyed (j := j) _ hjpos hj
  · rw [hzero, MemRegion.lineTour_eq hj, he, Nat.one_mul]
    rintro (hap | hap) <;> omega
  · intro t ht htn heq
    rw [hzero, MemRegion.lineTour_eq htn] at heq
    have hσ : σ t = 0 := (Nat.mul_eq_zero.1 heq.symm).resolve_right (by omega)
    have := h.inj t htn 0 (by omega) (hσ.trans h.first.symm)
    omega

/-- The pointers that can be followed from the start for ever. -/
def MemRegion.Ring (r : MemRegion) (m : Memory) : Prop :=
  ∃ visit : Nat → Nat, visit 0 = 0 ∧
    ∀ t, visit t + 8 ≤ r.size ∧ m.slot (visit t) = some (visit (t + 1))

theorem MemRegion.Ring.of_tour {visit : Nat → Nat} (hn : 0 < n) (hzero : visit 0 = 0)
    (hper : Function.Periodic visit n) (hfits : ∀ t < n, visit t + 8 ≤ r.size)
    (hapart : ∀ t < n, ∀ k < n, t ≠ k → Apart (visit t) (visit k)) :
    r.Ring (Memory.tour visit n) := by
  refine ⟨visit, hzero, fun t => ⟨?_, (Linked.tour hapart).slot_all hn hper t⟩⟩
  rw [← hper.map_mod_nat t]
  exact hfits _ (Nat.mod_lt t hn)

theorem Arranges.ring (h : Arranges n σ) (h8 : 8 ≤ r.lineSize) (hn : 0 < n)
    (hfits : ∀ t < n, r.lineTour σ n t + 8 ≤ r.size) : r.Ring (Memory.tour (r.lineTour σ n) n) :=
  .of_tour hn h.lineTour_zero (r.lineTour_periodic σ n) hfits
    fun _ ht _ hk hne => h.lineTour_apart h8 ht hk hne

/-- How many lines the stride of `stride_init` reaches. -/
def MemRegion.numStrides (r : MemRegion) : Nat := (r.activeSize - 1) / r.lineSize + 1

/-- One store of a tour. -/
def MemRegion.storeStop (r : MemRegion) (visit : Nat → Nat) (t : Nat) (m : Memory) :
    Run Fault Memory := r.storePointer m (visit t) (visit (t + 1))

theorem MemRegion.lt_active_iff (hpos : 0 < r.lineSize) (t : Nat) :
    (t + 1) * r.lineSize < r.activeSize ↔ t + 1 < r.numStrides := by
  have hdiv : t + 1 ≤ (r.activeSize - 1) / r.lineSize ↔ (t + 1) * r.lineSize ≤ r.activeSize - 1 :=
    Nat.le_div_iff_mul_le hpos
  have hmul : 0 < (t + 1) * r.lineSize := Nat.mul_pos (Nat.succ_pos t) hpos
  rw [MemRegion.numStrides]
  omega

theorem MemRegion.strideLoop_eq (fuel : Nat) (hpos : 0 < r.lineSize)
    (hsum : r.activeSize + r.lineSize < 2 ^ 64) (ht : t + 1 ≤ r.numStrides) (m : Memory) :
    r.strideLoop fuel ((t + 1) * r.lineSize) m =
      if r.numStrides - 1 - t < fuel then
        Run.loop (r.storeStop (r.lineTour id r.numStrides)) (r.numStrides - 1 - t) t m >>= fun m =>
          .done (r.numStrides * r.lineSize, m)
      else Run.loop (r.storeStop (r.lineTour id r.numStrides)) fuel t m >>= fun _ => .running := by
  induction fuel generalizing t m with
  | zero => rfl
  | succ fuel ih =>
    by_cases hlt : t + 1 < r.numStrides
    · have hi : (t + 1) * r.lineSize < r.activeSize := (MemRegion.lt_active_iff hpos t).2 hlt
      have hprev : u64Sub ((t + 1) * r.lineSize) r.lineSize = t * r.lineSize := by
        rw [Nat.succ_mul] at hi ⊢
        rw [u64Sub_eq (by omega) (by omega), Nat.add_sub_cancel]
      have hnext : u64 ((t + 1) * r.lineSize + r.lineSize) = (t + 1 + 1) * r.lineSize := by
        rw [← Nat.succ_mul, u64_eq]
        rw [Nat.succ_mul]
        omega
      have hstop : r.storePointer m (t * r.lineSize) ((t + 1) * r.lineSize) =
          r.storeStop (r.lineTour id r.numStrides) t m := by
        rw [MemRegion.storeStop, MemRegion.lineTour_eq (by omega), MemRegion.lineTour_eq hlt]
        rfl
      have hleft : r.numStrides - 1 - t = r.numStrides - 1 - (t + 1) + 1 := by omega
      have hfuel : r.numStrides - 1 - t < fuel + 1 ↔ r.numStrides - 1 - (t + 1) < fuel := by omega
      rw [MemRegion.strideLoop, if_pos hi, hprev, hnext, hstop]
      simp only [hfuel]
      rw [Run.bind_congr rfl fun m => ih hlt m, hleft]
      split
      · exact (Run.bind_assoc _ _ _).symm
      · exact (Run.bind_assoc _ _ _).symm
    · have hlast : t + 1 = r.numStrides := by omega
      have hi : ¬ (t + 1) * r.lineSize < r.activeSize :=
        fun hc => hlt ((MemRegion.lt_active_iff hpos t).1 hc)
      have hleft : r.numStrides - 1 - t = 0 := by omega
      rw [MemRegion.strideLoop, if_neg hi, hleft, if_pos (Nat.succ_pos fuel), hlast]
      rfl

/-- `stride_init` stores the sequential tour, or runs out of fuel within it. -/
theorem MemRegion.strideInit_tour (hpos : 0 < r.lineSize)
    (hsum : r.activeSize + r.lineSize < 2 ^ 64) (fuel : Nat) :
    r.strideInit fuel .zeroed =
      if r.numStrides - 1 < fuel then r.storeTour (r.lineTour id r.numStrides) r.numStrides
      else r.storeTour (r.lineTour id r.numStrides) fuel >>= fun _ => .running := by
  have hloop := MemRegion.strideLoop_eq fuel (t := 0) hpos hsum
    (Nat.succ_le_succ (Nat.zero_le _)) Memory.zeroed
  rw [Nat.zero_add, Nat.one_mul, Nat.sub_zero] at hloop
  rw [MemRegion.strideInit, hloop]
  obtain ⟨k, hk⟩ : ∃ k, r.numStrides = k + 1 := ⟨_, rfl⟩
  have hbound : k * r.lineSize ≤ r.activeSize - 1 := by
    rw [← Nat.le_div_iff_mul_le hpos]
    rw [MemRegion.numStrides] at hk
    omega
  split
  · rw [hk, MemRegion.storeTour_succ, Nat.add_sub_cancel, Run.bind_assoc]
    apply Run.bind_congr rfl
    intro m
    have hlast : u64Sub ((k + 1) * r.lineSize) r.lineSize = k * r.lineSize := by
      rw [Nat.succ_mul, u64Sub_eq (by omega) (by omega), Nat.add_sub_cancel]
    rw [Run.done_bind, MemRegion.lineTour_close, (Arranges.id (k + 1)).lineTour_zero,
      MemRegion.lineTour_eq (Nat.lt_succ_self k)]
    simp only [hlast]
    rfl
  · rw [Run.bind_assoc]
    rfl

theorem MemRegion.WellFormed.numActiveLines_eq (hr : r.WellFormed) :
    r.numActiveLines = r.numActivePages * r.numLinesInPage := by
  have hpos := hr.line_pos
  have hle : r.numActivePages * r.numLinesInPage ≤ r.numActivePages * r.pageSize := by
    apply Nat.mul_le_mul_left
    rw [hr.lines]
    exact Nat.div_le_self _ _
  have hpages := hr.pages_le
  have hactive := hr.active_le
  have hsize := hr.size_lt
  exact u64_eq (by omega)

theorem MemRegion.WellFormed.activeLines_le (hr : r.WellFormed) :
    r.numActiveLines * r.lineSize ≤ r.activeSize := by
  have hle : r.numActivePages * (r.numLinesInPage * r.lineSize) ≤ r.numActivePages * r.pageSize :=
    Nat.mul_le_mul_left _ hr.lines_le
  rw [hr.numActiveLines_eq, Nat.mul_assoc]
  exact Nat.le_trans hle hr.pages_le

/-- Either the shuffle is still running, or `all_random_init` stores its order as a tour. -/
theorem MemRegion.allRandomInit_tour (hr : r.WellFormed) (hM : 0 < r.numActiveLines)
    (rand : Nat → Nat) (fuel : Nat) :
    (randomizeSequence rand fuel (List.replicate r.numActiveLines 0) r.numActiveLines r.lineSize
        false = .running ∧ r.allRandomInit rand fuel .zeroed = .running) ∨
      ∃ σ, Arranges r.numActiveLines σ ∧ r.allRandomInit rand fuel .zeroed =
        r.storeTour (r.lineTour σ r.numActiveLines) r.numActiveLines := by
  have hlines := hr.activeLines_le
  have hactive := hr.active_le
  have hsize := hr.size_lt
  have hMlt : r.numActiveLines < 2 ^ 64 := u64_lt _
  have hsafe := randomizeSequence_safe rand fuel r.lineSize
    (List.length_replicate (a := 0)) (Nat.le_refl _) hM hMlt (by omega)
  rw [MemRegion.allRandomInit]
  by_cases hrun : randomizeSequence rand fuel (List.replicate r.numActiveLines 0) r.numActiveLines
      r.lineSize false = .running
  · simp only [hrun]
    exact .inl ⟨trivial, rfl⟩
  · obtain ⟨lines, hdone, hshuf, h0⟩ := hsafe.exists_done hrun
    obtain ⟨σ, hσ, hget⟩ := Arranges.of_shuffled hr.line_pos hM hshuf h0
    refine .inr ⟨σ, hσ, ?_⟩
    have hlen := hshuf.length
    have hat : ∀ j < r.numActiveLines, vectorAt lines j =
        .done (r.lineTour σ r.numActiveLines j) := by
      intro j hj
      rw [vectorAt_getD (by omega), hget j hj, MemRegion.lineTour_eq hj]
    obtain ⟨k, hk⟩ : ∃ k, r.numActiveLines = k + 1 := ⟨r.numActiveLines - 1, by omega⟩
    simp only [hdone, Run.done_bind, u64Sub_eq hM hMlt, hat 0 hM]
    rw [hk] at hat hMlt ⊢
    rw [MemRegion.storeTour_succ, Nat.add_sub_cancel, hat k (Nat.lt_succ_self k)]
    apply Run.bind_congr
    · apply Run.loop_congr
      intro j hj m
      simp only [Nat.zero_add, hat j (by omega), u64_eq (show j + 1 < 2 ^ 64 by omega),
        hat (j + 1) (by omega), Run.done_bind]
    · intro m
      rw [Run.done_bind, MemRegion.lineTour_close]

end MmMem

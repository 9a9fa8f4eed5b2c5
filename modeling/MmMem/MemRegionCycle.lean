import MmMem.MemRegionInit

namespace MmMem
open Prog
set_option autoImplicit true

variable {r : MemRegion} {m : Memory} {σ : Nat → Nat} {n : Nat}

/-- The memory of the region holds a closed tour from its start point. -/
structure MemRegion.Tours (r : MemRegion) (m : Memory) (visit : Nat → Nat) (n : Nat) : Prop where
  start : visit 0 = 0
  cycle : Cycle m visit n
  fits : ∀ t, visit t + 8 ≤ r.size

theorem MemRegion.Tours.of_store {visit : Nat → Nat} (hn : 0 < n) (hzero : visit 0 = 0)
    (hper : Function.Periodic visit n)
    (hapart : ∀ i < n, ∀ j < n, i ≠ j → Apart (visit i) (visit j))
    (h : r.storeTour visit n = .done m) : r.Tours m visit n := by
  obtain ⟨hslots, rfl⟩ := MemRegion.storeTour_done h
  refine ⟨hzero, .tour hn hper hapart, fun t => ?_⟩
  rw [← hper.map_mod_nat t]
  exact hslots _ (Nat.mod_lt t hn)

theorem MemRegion.Tours.follow {visit : Nat → Nat} (h : r.Tours m visit n) (t : Nat) :
    m.follow 0 t = some (visit t) := by
  rw [← h.start]
  exact h.cycle.follow t

theorem Arranges.tours (h : Arranges n σ) (h8 : 8 ≤ r.lineSize) (hn : 0 < n)
    (hs : r.storeTour (r.lineTour σ n) n = .done m) : r.Tours m (r.lineTour σ n) n :=
  .of_store hn h.lineTour_zero (r.lineTour_periodic σ n)
    (fun _ hi _ hj hne => h.lineTour_apart h8 hi hj hne) hs

theorem MemRegion.LineOrder.tours {linesInPage : List Nat} (h : r.LineOrder linesInPage σ)
    (hr : r.WellFormed) (h8 : 8 ≤ r.lineSize) (hP : 0 < r.numActivePages)
    (hK : 0 < r.numLinesInPage)
    (hs : r.storeTour (r.pageTour linesInPage) (r.numActivePages * r.numLinesInPage) = .done m) :
    r.Tours m (r.pageTour linesInPage) (r.numActivePages * r.numLinesInPage) :=
  .of_store (Nat.mul_pos hP hK) (h.tour_zero hP hK) (r.pageTour_periodic linesInPage)
    (fun _ hi _ hj hne => h.tour_apart hr h8 hi hj hne) hs

theorem MemRegion.strideInit_tours (h8 : 8 ≤ r.lineSize)
    (hsum : r.activeSize + r.lineSize < 2 ^ 64) (h : r.strideInit fuel .zeroed = .done m) :
    r.Tours m (r.lineTour id r.numStrides) r.numStrides := by
  rw [MemRegion.strideInit_tour (by omega) hsum] at h
  split at h
  · exact (Arranges.id r.numStrides).tours h8 (Nat.succ_pos _) h
  · obtain ⟨m', -, hrun⟩ := Run.bind_eq_done.1 h
    cases hrun

theorem MemRegion.allRandomInit_tours (hr : r.WellFormed) (h8 : 8 ≤ r.lineSize)
    (hM : 0 < r.numActiveLines) (h : r.allRandomInit rand fuel .zeroed = .done m) :
    ∃ σ, Arranges r.numActiveLines σ ∧
      r.Tours m (r.lineTour σ r.numActiveLines) r.numActiveLines := by
  rcases MemRegion.allRandomInit_tour hr hM rand fuel with ⟨-, hrun⟩ | ⟨σ, hσ, htour⟩
  · rw [hrun] at h
    cases h
  · rw [htour] at h
    exact ⟨σ, hσ, hσ.tours h8 hM h⟩

theorem MemRegion.pageRandomInit_tours (hr : r.WellFormed) (h8 : 8 ≤ r.lineSize)
    (hP : 0 < r.numActivePages) (hK : 0 < r.numLinesInPage)
    (h : r.pageRandomInit rand fuel .zeroed = .done m) :
    ∃ linesInPage σ, r.LineOrder linesInPage σ ∧
      r.Tours m (r.pageTour linesInPage) (r.numActivePages * r.numLinesInPage) := by
  rcases MemRegion.pageRandomInit_tour hr hK rand fuel with ⟨-, hrun⟩ | ⟨linesInPage, σ, hσ, htour⟩
  · rw [hrun] at h
    cases h
  · rw [htour] at h
    exact ⟨linesInPage, σ, hσ, hσ.tours hr h8 hP hK h⟩

/-- One closed chain over the first lines of the region. -/
structure MemRegion.LineChain (r : MemRegion) (m : Memory) (visit : Nat → Nat) : Prop where
  follows : ∀ n, m.follow 0 n = some (visit n)
  visitsOnce : ∀ i < r.numActiveLines, ∃! n, n < r.numActiveLines ∧ visit n = i * r.lineSize
  closes : visit r.numActiveLines = 0
  notEarlier : ∀ n, 0 < n → n < r.numActiveLines → visit n ≠ 0
  footprint : ∀ b, m.Written b → ∃ i < r.numActiveLines,
    i * r.lineSize ≤ b ∧ b < i * r.lineSize + 8

theorem Arranges.lineChain (hσ : Arranges r.numActiveLines σ)
    (h : r.Tours m (r.lineTour σ r.numActiveLines) r.numActiveLines) :
    r.LineChain m (r.lineTour σ r.numActiveLines) := by
  refine ⟨h.follow, fun i hi => ?_, ?_, fun n hpos hlt he => ?_, fun b hb => ?_⟩
  · obtain ⟨k, hk, rfl⟩ := hσ.surj i hi
    refine ⟨k, ⟨hk, MemRegion.lineTour_eq hk⟩, fun n ⟨hn, he⟩ => ?_⟩
    exact h.cycle.inj hn hk (he.trans (MemRegion.lineTour_eq hk).symm)
  · rw [h.cycle.closes, h.start]
  · have hzero := h.cycle.inj hlt h.cycle.pos (he.trans h.start.symm)
    omega
  · obtain ⟨o, ho, hb⟩ := hb
    obtain ⟨t, ht, rfl⟩ := h.cycle.linked.stores o ho
    rw [MemRegion.lineTour_eq ht] at hb
    exact ⟨σ t, hσ.lt t ht, hb⟩

/-- `all_random_init` builds one closed pointer chain over all lines. -/
theorem all_random_init_closed_chain (size activeSize pageSize lineSize : UInt64)
    (memType hugepageType : Int) (rand : Nat → Nat) (fuel : Nat) (r : MemRegion) (m : Memory)
    (hactive : activeSize ≤ size) (hline : 8 ≤ lineSize)
    (hnew : MemRegion.new size.toNat activeSize.toNat pageSize.toNat lineSize.toNat
      memType hugepageType = .done r)
    (hM : 1 ≤ r.numActiveLines) (hret : r.allRandomInit rand fuel .zeroed = .done m) :
    ∃ visit, r.LineChain m visit := by
  have hr := MemRegion.WellFormed.of_new size.toNat_lt
    (UInt64.le_iff_toNat_le.1 hactive) pageSize.toNat_lt hnew
  have h8 : 8 ≤ r.lineSize := by
    rw [MemRegion.new_lineSize hnew]
    exact UInt64.le_iff_toNat_le.1 hline
  obtain ⟨σ, hσ, htours⟩ := MemRegion.allRandomInit_tours hr h8 hM hret
  exact ⟨_, hσ.lineChain htours⟩

theorem all_random_init_closed_chain_small :
    ∃ m visit, (MemRegion.layout 32 32 16 8 0 0).allRandomInit (fun _ => 0) 4 .zeroed = .done m ∧
      (MemRegion.layout 32 32 16 8 0 0).LineChain m visit := by
  obtain ⟨m, hm⟩ := Run.exists_done (x := (MemRegion.layout 32 32 16 8 0 0).allRandomInit
    (fun _ => 0) 4 .zeroed) (by decide +kernel)
  obtain ⟨visit, h⟩ := all_random_init_closed_chain 32 32 16 8 0 0 (fun _ => 0) 4
    (.layout 32 32 16 8 0 0) m (by decide) (by decide) rfl (by decide) hm
  exact ⟨m, visit, hm, h⟩

end MmMem

import MmMem.LatencyFaults
import MmMem.MemRegionCycle

namespace MmMem
open Prog
set_option autoImplicit true

variable {r : MemRegion} {m : Memory}

/-- One cycle over the lines in their order, every pointer of it inside the active bytes. -/
structure MemRegion.SequentialCycle (r : MemRegion) (n : Nat) (m : Memory) : Prop where
  visits : ∀ t < n, m.follow 0 t = some (t * r.lineSize)
  returns : m.follow 0 n = some 0
  notEarlier : ∀ t, 0 < t → t < n → m.follow 0 t ≠ some 0
  inside : ∀ o ∈ m.stores, o + 8 ≤ r.activeSize

/-- The lines divide the active bytes, or what is left over holds a pointer. -/
def MemRegion.LastStrideFits (r : MemRegion) : Prop :=
  r.lineSize ∣ r.activeSize ∨ 8 ≤ r.activeSize % r.lineSize

instance (r : MemRegion) : Decidable r.LastStrideFits := inferInstanceAs (Decidable (_ ∨ _))

theorem MemRegion.numStrides_eq (hpos : 0 < r.lineSize) (hactive : 0 < r.activeSize) :
    (r.activeSize + r.lineSize - 1) / r.lineSize = r.numStrides := by
  have hsum : r.activeSize + r.lineSize - 1 = r.activeSize - 1 + r.lineSize := by omega
  rw [hsum, Nat.add_div_right _ hpos, MemRegion.numStrides]

theorem MemRegion.lastStride_iff (h8 : 8 ≤ r.lineSize) (hactive : 0 < r.activeSize) :
    (r.numStrides - 1) * r.lineSize + 8 ≤ r.activeSize ↔ r.LastStrideFits := by
  have hdiv := Nat.div_add_mod (r.activeSize - 1) r.lineSize
  have hlt : (r.activeSize - 1) % r.lineSize < r.lineSize := Nat.mod_lt _ (by omega)
  rw [MemRegion.numStrides, Nat.add_sub_cancel, Nat.mul_comm, MemRegion.LastStrideFits]
  generalize (r.activeSize - 1) / r.lineSize = q at hdiv
  generalize (r.activeSize - 1) % r.lineSize = s at hdiv hlt
  have hsplit : r.activeSize = r.lineSize * q + (s + 1) := by omega
  rw [Nat.dvd_iff_mod_eq_zero, hsplit, Nat.mul_add_mod]
  by_cases hfull : s + 1 = r.lineSize
  · rw [hfull, Nat.mod_self]
    omega
  · rw [Nat.mod_eq_of_lt (by omega)]
    omega

theorem MemRegion.strideInit_storeTour (hpos : 0 < r.lineSize) (hline : r.lineSize < 2 ^ 64)
    (hactive : 0 < r.activeSize) (hlt : r.activeSize < 2 ^ 63) (hfuel : r.numStrides ≤ fuel) :
    r.strideInit fuel .zeroed = r.storeTour (r.lineTour id r.numStrides) r.numStrides := by
  by_cases hfar : r.activeSize ≤ r.lineSize
  · -- the loop is not entered, and the addition that could overflow is not made
    have hone : r.numStrides = 1 := by
      rw [MemRegion.numStrides, Nat.div_eq_of_lt (by omega)]
    obtain ⟨fuel, rfl⟩ : ∃ k, fuel = k + 1 := ⟨fuel - 1, by omega⟩
    rw [MemRegion.strideInit, MemRegion.strideLoop, if_neg (Nat.not_lt.2 hfar), Run.done_bind, hone,
      MemRegion.storeTour_succ]
    have hback : u64Sub r.lineSize r.lineSize = 0 := by
      rw [u64Sub_eq (Nat.le_refl _) hline, Nat.sub_self]
    simp only [hback]
    rw [MemRegion.lineTour_close, (Arranges.id 1).lineTour_zero]
    rfl
  · have henough : r.numStrides - 1 < fuel := Nat.lt_of_lt_of_le (Nat.pred_lt (Nat.succ_ne_zero _)) hfuel
    rw [MemRegion.strideInit_tour hpos (by omega), if_pos henough]

theorem MemRegion.tour_sequential (h8 : 8 ≤ r.lineSize)
    (h : r.Tours m (r.lineTour id r.numStrides) r.numStrides)
    (hlast : (r.numStrides - 1) * r.lineSize + 8 ≤ r.activeSize) :
    r.SequentialCycle r.numStrides m where
  visits t ht := by rw [h.follow, MemRegion.lineTour_eq ht, id]
  returns := by rw [h.follow, h.cycle.closes, h.start]
  notEarlier t hpos ht he := by
    rw [h.follow, MemRegion.lineTour_eq ht, id] at he
    have hzero := Nat.mul_eq_zero.1 (Option.some.inj he)
    omega
  inside o ho := by
    obtain ⟨t, ht, rfl⟩ := h.cycle.linked.stores o ho
    have hle : t * r.lineSize ≤ (r.numStrides - 1) * r.lineSize :=
      Nat.mul_le_mul_right _ (by omega)
    rw [MemRegion.lineTour_eq ht, id]
    omega

theorem MemRegion.storeTour_last (h : r.storeTour (r.lineTour id r.numStrides) r.numStrides =
    .done m) : (r.numStrides - 1) * r.lineSize ∈ m.stores := by
  obtain ⟨-, rfl⟩ := MemRegion.storeTour_done h
  obtain ⟨k, hk⟩ : ∃ k, r.numStrides = k + 1 := ⟨_, rfl⟩
  rw [hk, Nat.add_sub_cancel]
  have hvisit : r.lineTour id (k + 1) k = k * r.lineSize :=
    MemRegion.lineTour_eq (Nat.lt_succ_self k)
  exact List.mem_cons.2 (.inl hvisit.symm)

/-- `stride_init` builds one sequential cycle inside the active bytes exactly if the lines divide
them or the last, partial line holds a pointer. -/
theorem stride_init_sequential_cycle (size activeSize pageSize lineSize : UInt64)
    (memType hugepageType : Int) (r : MemRegion) (hsize : size.toNat < 2 ^ 63)
    (hactive : activeSize ≤ size) (hpointer : 8 ≤ activeSize) (hline : 8 ≤ lineSize)
    (hnew : MemRegion.new size.toNat activeSize.toNat pageSize.toNat lineSize.toNat
      memType hugepageType = .done r) :
    let n := (r.activeSize + r.lineSize - 1) / r.lineSize
    (∀ fuel ≥ n, ∃ m, r.strideInit fuel .zeroed = .done m ∧ r.SequentialCycle n m) ↔
      r.LastStrideFits := by
  have hlayout := MemRegion.new_done hnew
  have hactiveEq : r.activeSize = activeSize.toNat := by
    rw [hlayout]
    rfl
  have hsizeEq : r.size = size.toNat := by
    rw [hlayout]
    rfl
  have hlineEq := MemRegion.new_lineSize hnew
  have hlinelt := lineSize.toNat_lt
  rw [UInt64.le_iff_toNat_le] at hactive hpointer hline
  have h8 : 8 ≤ r.lineSize := hlineEq ▸ hline
  have hpos : 0 < r.activeSize := hactiveEq ▸ Nat.lt_of_lt_of_le (by decide) hpointer
  have hstore := fun fuel (hfuel : r.numStrides ≤ fuel) =>
    MemRegion.strideInit_storeTour (r := r) (by omega) (by omega) hpos (by omega) hfuel
  intro n
  rw [show n = r.numStrides from MemRegion.numStrides_eq (by omega) hpos,
    ← MemRegion.lastStride_iff h8 hpos]
  constructor
  · intro h
    obtain ⟨m, hm, hcycle⟩ := h r.numStrides (Nat.le_refl _)
    rw [hstore _ (Nat.le_refl _)] at hm
    exact hcycle.inside _ (MemRegion.storeTour_last hm)
  · intro hlast fuel hfuel
    have harr := Arranges.id r.numStrides
    have hn : 0 < r.numStrides := Nat.succ_pos _
    have hfits : (r.numStrides - 1) * r.lineSize + 8 ≤ r.size := by omega
    have hdone := MemRegion.storeTour_eq ((harr.lineTour_fits hn).2 hfits)
    rw [hstore fuel hfuel]
    exact ⟨_, hdone, MemRegion.tour_sequential h8 (harr.tours h8 hn hdone) hlast⟩

/-- Lines of 24 bytes in 64: the last has 16. -/
theorem stride_init_sequential_cycle_partial :
    let r := MemRegion.layout 64 64 32 24 0 0
    r.LastStrideFits ∧ ∀ fuel ≥ 3, ∃ m, r.strideInit fuel .zeroed = .done m ∧ r.SequentialCycle 3 m := by
  intro r
  have hlast : r.LastStrideFits := by decide
  have hcount : (r.activeSize + r.lineSize - 1) / r.lineSize = 3 := by decide
  have hcycle := (stride_init_sequential_cycle 64 64 32 24 0 0 r (by decide) (by decide)
    (by decide) (by decide) rfl).2 hlast
  rw [hcount] at hcycle
  exact ⟨hlast, hcycle⟩

/-- Strides of 1020 bytes in a region of 1 KiB: four bytes of the closing pointer are outside. -/
theorem stride_init_outside :
    let numa := NumaConfig.new ⟨0, 1, 1, fun _ => true, fun _ => 2 ^ 34, fun _ => some fun _ => true⟩
    let r := MemRegion.layout 1024 1024 131072 1020 0 0
    ∃ config, Configuration.parseOptions .latency numa
        ["cpu_idle_latency".toList, "-p0".toList, "-b1".toList, "-s1020".toList] =
          .done (.ok config) ∧
      (∀ rand fuel, memRegionAllocLat rand fuel (prepareMemLatBwThreadPacket config (-1) 1 0) =
        r.strideInit fuel .zeroed >>= fun m => .done (r, m)) ∧
      r.strideInit 2 .zeroed = .fault (.outsideRegion 1020) ∧
      ¬ ∀ fuel ≥ 2, ∃ m, r.strideInit fuel .zeroed = .done m ∧ r.SequentialCycle 2 m := by
  intro numa r
  let config := { Configuration.byDefault .latency numa with
    accessPattern := 0, regionSizeKb := 1, strideSizeB := 1020 }
  have hfault : r.strideInit 2 .zeroed = .fault (.outsideRegion 1020) := by
    rw [MemRegion.strideInit_tour (by decide) (by decide), if_pos (by decide),
      show r.numStrides = 2 by decide, MemRegion.storeTour_succ,
      MemRegion.storeTour_eq (by decide), Run.done_bind, MemRegion.storePointer, if_neg (by decide),
      MemRegion.lineTour_eq (by decide)]
    rfl
  refine ⟨config, by decide +kernel, fun rand fuel => ?_, hfault, fun h => ?_⟩
  · have hregion : config.latRegion (memTypeNode0 + -1).toInt = r := by decide +kernel
    have hpattern : config.accessPattern = 0 := rfl
    rw [memRegionAllocLat_eq, if_neg (by decide +kernel), hregion, hpattern,
      MemRegion.initByPattern_stride]
  · obtain ⟨m, hm, -⟩ := h 2 (Nat.le_refl 2)
    rw [hfault] at hm
    cases hm

end MmMem

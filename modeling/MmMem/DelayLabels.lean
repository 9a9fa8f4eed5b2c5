import MmMem.DelaySelection

namespace MmMem
open Prog
set_option autoImplicit true

/-- How many nops a call of the kernel executes. -/
def nopsPerCall (c : Code) : Nat := c.count .nop

theorem Statement.exec_nops {x : Statement} (h : x.exec r s = .done s') :
    s'.nops = s.nops + if x = .nop then 1 else 0 := by
  cases x with
  | addWord =>
    obtain ⟨_, -, h⟩ := Run.bind_eq_done.1 h
    cases h
    rfl
  | storeWord =>
    rw [Statement.exec] at h
    split at h
    · cases h
      rfl
    · cases h
  | advance =>
    cases h
    rfl
  | nop =>
    cases h
    rfl

theorem runCode_nops (h : runCode r c s = .done s') : s'.nops = s.nops + nopsPerCall c := by
  induction c generalizing s with
  | nil =>
    cases h
    rfl
  | cons x c ih =>
    obtain ⟨t, ht, h⟩ := Run.bind_eq_done.1 h
    have hcount : nopsPerCall (x :: c) = nopsPerCall c + if x = .nop then 1 else 0 := by
      rw [nopsPerCall, List.count_cons]
      congr 1
      exact if_congr beq_iff_eq rfl rfl
    rw [ih h, Statement.exec_nops ht, hcount]
    omega

theorem nopsPerCall_append (a b : Code) : nopsPerCall (a ++ b) = nopsPerCall a + nopsPerCall b :=
  List.count_append

theorem Repeats.nops (h : Repeats k f) (c : Code) : nopsPerCall (f c) = k * nopsPerCall c := by
  rw [h]
  clear h
  induction k with
  | zero => rw [Nat.zero_mul]; rfl
  | succ k ih =>
    rw [List.replicate_succ, List.flatten_cons, nopsPerCall_append, ih, Nat.succ_mul, Nat.add_comm]

/-- The nops that a kernel of a mix executes for each nop of its slot. -/
def multiplicity (readWriteMix : UInt32) : Nat :=
  if readWriteMix = 0 then 256
  else if readWriteMix = 1 then 512
  else if readWriteMix = 2 then 96
  else 340

theorem delayKernel_nops (mix : UInt32) (c : Code) :
    nopsPerCall (delayKernel mix c) = multiplicity mix * nopsPerCall c := by
  have hrd : nopsPerCall rd32 = 0 := rfl
  have hwr : nopsPerCall wr32 = 0 := rfl
  rw [delayKernel, multiplicity]
  split
  · rw [kR1w0S, Repeats.lp256.nops, nopsPerCall_append, hrd, Nat.zero_add]
  · split
    · rw [kR1w1S, Repeats.lp128.nops, nopsPerCall_append, nopsPerCall_append, Repeats.lp4.nops, hrd,
        hwr]
      omega
    · split
      · rw [kR2w1S, Repeats.lp32.nops, nopsPerCall_append, nopsPerCall_append, Repeats.lp4.nops,
          Repeats.lp2.nops, nopsPerCall_append, Repeats.lp3.nops, hrd, hwr]
        omega
      · rw [kR3w1S, nopsPerCall_append, nopsPerCall_append, nopsPerCall_append, Repeats.lp42.nops,
          nopsPerCall_append, nopsPerCall_append, Repeats.lp5.nops, Repeats.lp8.nops,
          Repeats.lp3.nops, Repeats.lp1.nops, Repeats.lp4.nops, hrd, hwr]
        omega

/-- The delay that a kernel of a mix really injects. -/
def executedDelay (readWriteMix : UInt32) (c : Code) : ℚ := nopsPerCall c / multiplicity readWriteMix

/-- A kernel of the mix, twice, that is closest to the delay and has the label it deserves. -/
def SelectsClosest (mix : UInt32) (delay : Int) (selected : List (Int32 × Code)) : Prop :=
  ∃ item ∈ getKernelsWithDelays mix, selected = [item, item] ∧
    (∀ other ∈ getKernelsWithDelays mix,
      |executedDelay mix item.2 - delay| ≤ |executedDelay mix other.2 - delay|) ∧
    (item.1.toInt : ℚ) = executedDelay mix item.2

/-- All kernels of the mix, in the order of their nops, with the first once more in front. -/
def ListsAscending (mix : UInt32) (selected : List (Int32 × Code)) : Prop :=
  ∃ first later, selected = first :: first :: later ∧
    (first :: later).Perm (getKernelsWithDelays mix) ∧
    (first :: later).Pairwise fun a b => nopsPerCall a.2 < nopsPerCall b.2

/-- What the selection is to make of a requested delay. -/
def Requested (mix : UInt32) (delay : Int) (selected : List (Int32 × Code)) : Prop :=
  if 0 < delay then SelectsClosest mix delay selected else ListsAscending mix selected

theorem multiplicity_pos (mix : UInt32) : 0 < multiplicity mix := by
  rw [multiplicity]
  split
  · decide
  · split
    · decide
    · split
      · decide
      · decide

theorem slot_nops {mix : UInt32} (h : x ∈ delaySlots mix) :
    nopsPerCall (delayKernel mix x.2) = multiplicity mix * slotNops x.1 := by
  rw [delayKernel_nops, delaySlots_nops h, nopsPerCall, List.count_replicate_self]

theorem slot_executedDelay {mix : UInt32} (h : x ∈ delaySlots mix) :
    executedDelay mix (delayItem mix x).2 = ((slotNops x.1 : Int) : ℚ) := by
  have hne : (multiplicity mix : ℚ) ≠ 0 := Nat.cast_ne_zero.2 (Nat.ne_of_gt (multiplicity_pos mix))
  rw [executedDelay, delayItem, slot_nops h, Nat.cast_mul, mul_div_cancel_left₀ _ hne, Int.cast_natCast]

/-- The slot of 104 injects 120 nops; the others inject what their labels say. -/
theorem slotNops_cases {mix : UInt32} (h : x ∈ delaySlots mix) :
    x.1.toInt = 104 ∧ (slotNops x.1 : Int) = 120 ∨
      (x.1.toInt ≤ 96 ∨ x.1.toInt = 112 ∨ 128 ≤ x.1.toInt) ∧ (slotNops x.1 : Int) = x.1.toInt := by
  have hpos := delaySlots_pos h
  by_cases h104 : x.1 = 104
  · rw [slotNops, if_pos h104, h104]
    exact .inl ⟨rfl, rfl⟩
  · rw [slotNops, if_neg h104, Int.toNat_of_nonneg (Int.le_of_lt hpos)]
    rcases delaySlots_labels h with hlow | rfl | rfl | hhigh
    · exact .inr ⟨.inl hlow.2, rfl⟩
    · exact absurd rfl h104
    · exact .inr ⟨.inr (.inl rfl), rfl⟩
    · exact .inr ⟨.inr (.inr hhigh), rfl⟩

theorem mem_delaySlots (mix : UInt32) : (96, mn96) ∈ delaySlots mix ∧
    (104, mn104) ∈ delaySlots mix ∧ (112, mn112) ∈ delaySlots mix ∧ (128, mn128) ∈ delaySlots mix := by
  rcases delaySlots_eq mix with he | he
  · rw [he]
    decide +kernel
  · rw [he]
    decide +kernel

theorem delaySlots_order (mix : UInt32) :
    (delaySlots mix).idxOf (96, mn96) < (delaySlots mix).idxOf (104, mn104) ∧
      (delaySlots mix).idxOf (104, mn104) < (delaySlots mix).idxOf (112, mn112) := by
  rcases delaySlots_eq mix with he | he
  · rw [he]
    decide +kernel
  · rw [he]
    decide +kernel

/-- What the first of the closest slots is, as far as the slots around 104 are concerned. -/
structure Nearest (mix : UInt32) (d : Int) (x : Int32 × Code) : Prop where
  mem : x ∈ delaySlots mix
  le : ∀ y ∈ delaySlots mix, labelGap d x ≤ labelGap d y
  /-- a tie between 96 and 104 goes to 96 -/
  above : x.1.toInt = 104 → |104 - d| < |96 - d|
  /-- a tie between 104 and 112 goes to 104 -/
  below : x.1.toInt = 112 → |112 - d| < |104 - d|

theorem Nearest.of_argmin {mix : UInt32} {x : Int32 × Code}
    (h : x ∈ (delaySlots mix).argmin (labelGap d)) : Nearest mix d x := by
  have hmem := List.argmin_mem h
  obtain ⟨h96, h104, -, -⟩ := mem_delaySlots mix
  obtain ⟨hfirst, hsecond⟩ := delaySlots_order mix
  refine ⟨hmem, fun y hy => List.le_of_mem_argmin hy h, fun hx => ?_, fun hx => ?_⟩
  · by_contra hle
    rcases delaySlots_labels hmem with hlow | rfl | rfl | hhigh
    · omega
    · exact absurd (List.index_of_argmin h h96 (Int.not_lt.1 hle)) (Nat.not_le.2 hfirst)
    · cases hx
    · omega
  · by_contra hle
    rcases delaySlots_labels hmem with hlow | rfl | rfl | hhigh
    · omega
    · cases hx
    · exact absurd (List.index_of_argmin h h104 (Int.not_lt.1 hle)) (Nat.not_le.2 hsecond)
    · omega

theorem Nearest.le_label {mix : UInt32} {x y : Int32 × Code} (h : Nearest mix d x)
    (hy : y ∈ delaySlots mix) (hn : y.1.toInt = n) : |x.1.toInt - d| ≤ |n - d| := by
  rw [← hn]
  exact h.le y hy

/-- The delays for which the label of 104 is chosen or its kernel would have been closer. -/
def Mislabelled (d : Int) : Prop := 101 ≤ d ∧ d ≤ 108 ∨ 117 ≤ d ∧ d ≤ 123

instance (d : Int) : Decidable (Mislabelled d) := inferInstanceAs (Decidable (_ ∨ _))

theorem closer_low {a b : Int} (h : a < b) : |a - d| ≤ |b - d| ↔ 2 * d ≤ a + b := by
  rw [abs_eq_max_neg, abs_eq_max_neg]
  omega

theorem closer_high {a b : Int} (h : a < b) : |b - d| ≤ |a - d| ↔ a + b ≤ 2 * d := by
  rw [abs_eq_max_neg, abs_eq_max_neg]
  omega

/-- The nearest label is true and its kernel the closest exactly outside those delays. -/
theorem Nearest.exact_iff {mix : UInt32} {x : Int32 × Code} (h : Nearest mix d x) :
    (x.1.toInt = slotNops x.1 ∧
      ∀ y ∈ delaySlots mix, |(slotNops x.1 : Int) - d| ≤ |(slotNops y.1 : Int) - d|) ↔
      ¬ Mislabelled d := by
  obtain ⟨h96, h104, h112, h128⟩ := mem_delaySlots mix
  have hle104 := h.le_label h104 (n := 104) rfl
  have hle112 := h.le_label h112 (n := 112) rfl
  have hle128 := h.le_label h128 (n := 128) rfl
  rw [Mislabelled]
  constructor
  · rintro ⟨htrue, hclosest⟩
    have h120 := hclosest _ h104
    rw [show (slotNops (104, mn104).1 : Int) = 120 from rfl] at h120
    rw [← htrue] at h120
    rcases slotNops_cases h.mem with ⟨hl, hn⟩ | ⟨hlow | hl | hhigh, -⟩
    · omega
    · have hd := (closer_low (show x.1.toInt < 104 by omega)).1 hle104
      omega
    · have hbelow := mt (closer_low (show (104 : Int) < 112 by decide)).2 (Int.not_le.2 (h.below hl))
      rw [hl] at h120
      have hd := (closer_low (show (112 : Int) < 120 by decide)).1 h120
      omega
    · have hd := (closer_high (show 120 < x.1.toInt by omega)).1 h120
      omega
  · intro hd
    rcases slotNops_cases h.mem with ⟨hl, hn⟩ | ⟨hlabel, hn⟩
    · have habove := mt (closer_low (show (96 : Int) < 104 by decide)).2 (Int.not_le.2 (h.above hl))
      rw [hl] at hle112
      have hmid := (closer_low (show (104 : Int) < 112 by decide)).1 hle112
      omega
    · rw [hn]
      refine ⟨rfl, fun y hy => ?_⟩
      rcases slotNops_cases hy with ⟨hl', hn'⟩ | ⟨-, hn'⟩
      · rw [hn']
        rcases hlabel with hlow | hl | hhigh
        · have hmid := (closer_low (show x.1.toInt < 104 by omega)).1 hle104
          exact (closer_low (by omega)).2 (by omega)
        · have hbelow := mt (closer_low (show (104 : Int) < 112 by decide)).2
            (Int.not_le.2 (h.below hl))
          have hmid := (closer_low (show x.1.toInt < 128 by omega)).1 hle128
          exact (closer_low (by omega)).2 (by omega)
        · have hmid := (closer_high (show 112 < x.1.toInt by omega)).1 hle112
          have hfar : 128 < x.1.toInt → 128 + x.1.toInt ≤ 2 * d := fun hlt =>
            (closer_high hlt).1 hle128
          exact (closer_high (by omega)).2 (by omega)
      · rw [hn']
        exact h.le y hy

theorem exact_cast_iff (a b d : Int) : |(a : ℚ) - d| ≤ |(b : ℚ) - d| ↔ |a - d| ≤ |b - d| := by
  rw [← Int.cast_sub, ← Int.cast_sub, ← Int.cast_abs, ← Int.cast_abs, Int.cast_le]

/-- Which of the delays a selection of one kernel is right for. -/
theorem Nearest.selectsClosest_iff {mix : UInt32} {x : Int32 × Code} (h : Nearest mix d x)
    (hmix : mix ≤ 3) :
    SelectsClosest mix d [delayItem mix x, delayItem mix x] ↔ ¬ Mislabelled d := by
  rw [← h.exact_iff]
  have hmem : ∀ y ∈ delaySlots mix, delayItem mix y ∈ getKernelsWithDelays mix := by
    intro y hy
    rw [getKernelsWithDelays_eq hmix]
    exact List.mem_map_of_mem hy
  constructor
  · rintro ⟨item, -, he, hclosest, hlabel⟩
    cases he
    rw [slot_executedDelay h.mem] at hlabel
    refine ⟨Int.cast_inj.1 hlabel, fun y hy => ?_⟩
    have hle := hclosest _ (hmem y hy)
    rwa [slot_executedDelay h.mem, slot_executedDelay hy, exact_cast_iff] at hle
  · rintro ⟨hlabel, hclosest⟩
    refine ⟨_, hmem x h.mem, rfl, fun other hother => ?_, ?_⟩
    · rw [getKernelsWithDelays_eq hmix] at hother
      obtain ⟨y, hy, rfl⟩ := List.mem_map.1 hother
      rw [slot_executedDelay h.mem, slot_executedDelay hy, exact_cast_iff]
      exact hclosest y hy
    · rw [slot_executedDelay h.mem]
      exact congrArg Int.cast hlabel

variable {config : Configuration}

theorem getKernelsWithDelays_not_ascending {mix : UInt32} (hmix : mix ≤ 3) :
    ¬ (getKernelsWithDelays mix).Pairwise fun a b => nopsPerCall a.2 < nopsPerCall b.2 := by
  rw [getKernelsWithDelays_eq hmix, List.pairwise_map]
  intro h
  have hnops : (delaySlots mix).Pairwise fun a b => slotNops a.1 < slotNops b.1 := by
    refine h.imp_of_mem fun ha hb hlt => ?_
    rw [delayItem, delayItem, slot_nops ha, slot_nops hb] at hlt
    exact Nat.lt_of_mul_lt_mul_left hlt
  revert hnops
  rcases delaySlots_eq mix with he | he
  · rw [he]
    decide +kernel
  · rw [he]
    decide +kernel

theorem requested_pos_iff (hmix : config.readWriteMix ≤ 3) (hd : 0 < config.loadGenDelay.toInt) :
    (∃ selected, buildDelaysAndKernels config = .done selected ∧
      Requested config.readWriteMix config.loadGenDelay.toInt selected) ↔
      ¬ Mislabelled config.loadGenDelay.toInt := by
  obtain ⟨x, hx, hbuild⟩ := buildDelaysAndKernels_pos hmix hd
  rw [hbuild, ← (Nearest.of_argmin hx).selectsClosest_iff hmix]
  constructor
  · rintro ⟨selected, he, hrequested⟩
    cases he
    rwa [Requested, if_pos hd] at hrequested
  · intro hclosest
    refine ⟨_, rfl, ?_⟩
    rwa [Requested, if_pos hd]

theorem not_requested_nonpos (hmix : config.readWriteMix ≤ 3)
    (hd : config.loadGenDelay.toInt ≤ 0) : ¬ ∃ selected,
      buildDelaysAndKernels config = .done selected ∧
        Requested config.readWriteMix config.loadGenDelay.toInt selected := by
  rintro ⟨selected, hselected, hrequested⟩
  obtain ⟨first, later, hraw, hbuild⟩ := buildDelaysAndKernels_all hd
  rw [hbuild] at hselected
  cases hselected
  rw [Requested, if_neg (Int.not_lt.2 hd)] at hrequested
  obtain ⟨first', later', he, -, hascending⟩ := hrequested
  cases he
  rw [← hraw] at hascending
  exact getKernelsWithDelays_not_ascending hmix hascending

/-- The requested delay is injected exactly if it is positive and not among those that the label
of 104 is wrong for. -/
theorem requested_delay_injected (config : Configuration) (hmix : config.readWriteMix ≤ 3) :
    (∃ selected, buildDelaysAndKernels config = .done selected ∧
      Requested config.readWriteMix config.loadGenDelay.toInt selected) ↔
      0 < config.loadGenDelay.toInt ∧ ¬ Mislabelled config.loadGenDelay.toInt := by
  by_cases hd : 0 < config.loadGenDelay.toInt
  · rw [requested_pos_iff hmix hd, and_iff_right hd]
  · exact ⟨fun h => absurd h (not_requested_nonpos hmix (Int.not_lt.1 hd)), fun h => absurd h.1 hd⟩

/-- A delay of 60 for the default mix. -/
theorem requested_delay_injected_default :
    let numa := NumaConfig.new ⟨0, 1, 1, fun _ => true, fun _ => 2 ^ 34, fun _ => some fun _ => true⟩
    let config := { Configuration.byDefault .latencyBandwidth numa with loadGenDelay := 60 }
    ∃ selected, buildDelaysAndKernels config = .done selected ∧ Requested 2 60 selected := by
  intro numa config
  exact (requested_delay_injected config (by decide)).2 ⟨by decide, by decide⟩

/-- Without options the kernels are not in order, and the label of 104 hides 120 nops. -/
theorem delay_label_wrong :
    let numa := NumaConfig.new ⟨0, 1, 1, fun _ => true, fun _ => 2 ^ 34, fun _ => some fun _ => true⟩
    (∃ config, Configuration.parseOptions .latencyBandwidth numa ["cpu_loaded_latency".toList] =
        .done (.ok config) ∧ config.readWriteMix = 2 ∧ config.loadGenDelay = 0 ∧
      ¬ ∃ selected, buildDelaysAndKernels config = .done selected ∧ Requested 2 0 selected) ∧
    ∃ config, Configuration.parseOptions .latencyBandwidth numa
        ["cpu_loaded_latency".toList, "-d104".toList] = .done (.ok config) ∧
      config.readWriteMix = 2 ∧ config.loadGenDelay = 104 ∧
      ¬ ∃ selected, buildDelaysAndKernels config = .done selected ∧ Requested 2 104 selected := by
  intro numa
  let config := { Configuration.byDefault .latencyBandwidth numa with loadGenDelay := 104 }
  constructor
  · exact ⟨_, Configuration.parseOptions_none _ _ _, rfl, rfl,
      not_requested_nonpos (by decide) (by decide)⟩
  · refine ⟨config, by decide +kernel, rfl, rfl, fun h => ?_⟩
    exact (requested_pos_iff (by decide) (by decide)).1 h (by decide)

end MmMem

import MmMem.CommandLineValues
import MmMem.KernelSweeps
import Mathlib.Data.List.MinMax
import Mathlib.Data.Rat.Cast.Order

namespace MmMem
open Prog
set_option autoImplicit true

/-- What the selection of the kernels must not do. -/
inductive SelectionFault where
  | signedOverflow (value : Int)
  | frontOfEmptyList
  deriving Repr, DecidableEq

/-- The value of an expression of type `int32_t`. -/
def int32Value (n : Int) : Run SelectionFault Int :=
  if -2 ^ 31 ≤ n ∧ n < 2 ^ 31 then .done n else .fault (.signedOverflow n)

/-- `abs(delay - load_gen_delay)` -/
def currGap (delay loadGenDelay : Int32) : Run SelectionFault Int := do
  let difference ← int32Value (delay.toInt - loadGenDelay.toInt)
  int32Value |difference|

/-- The loop over the items that are left, with the smallest gap so far. -/
def closestItems (loadGenDelay : Int32) : List (Int32 × Code) → Int → List (Int32 × Code) →
    Run SelectionFault (List (Int32 × Code))
  | [], _, selected => .done selected
  | item :: items, gap, selected => do
    let curr ← currGap item.1 loadGenDelay
    if curr < gap then closestItems loadGenDelay items curr [item]
    else closestItems loadGenDelay items gap selected

def buildDelaysAndKernels (config : Configuration) : Run SelectionFault (List (Int32 × Code)) := do
  let raw := getKernelsWithDelays config.readWriteMix
  let delaysAndKernels ←
    if config.loadGenDelay > 0 then
      closestItems config.loadGenDelay raw config.loadGenDelay.toInt []
    else Run.done raw
  match delaysAndKernels with
  | [] => .fault .frontOfEmptyList
  | first :: later => .done (first :: first :: later)

/-- How far the label of an item is from a delay. -/
def labelGap (delay : Int) (item : Int32 × Code) : Int := |item.1.toInt - delay|

theorem currGap_eq {item : Int32 × Code} {d : Int32} (hitem : 0 ≤ item.1.toInt)
    (hd : 0 < d.toInt) : currGap item.1 d = .done (labelGap d.toInt item) := by
  have hlt := item.1.toInt_lt
  have hdlt := d.toInt_lt
  have hrange : -2 ^ 31 ≤ item.1.toInt - d.toInt ∧ item.1.toInt - d.toInt < 2 ^ 31 := by omega
  have habs : -2 ^ 31 ≤ |item.1.toInt - d.toInt| ∧ |item.1.toInt - d.toInt| < 2 ^ 31 := by
    rw [abs_lt]
    exact ⟨Int.le_trans (by decide) (abs_nonneg _), by omega⟩
  rw [currGap, int32Value, if_pos hrange, Run.done_bind, int32Value, if_pos habs]
  rfl

/-- The loop keeps the first of the closest items, if one is closer than it starts with. -/
theorem closestItems_eq {d : Int32} (hd : 0 < d.toInt) (items : List (Int32 × Code))
    (hitems : ∀ item ∈ items, 0 ≤ item.1.toInt) (gap : Int) (selected : List (Int32 × Code)) :
    closestItems d items gap selected = .done
      (match items.argmin (labelGap d.toInt) with
      | none => selected
      | some item => if labelGap d.toInt item < gap then [item] else selected) := by
  induction items generalizing gap selected with
  | nil => rfl
  | cons item items ih =>
    have hlater := ih fun x hx => hitems x (List.mem_cons_of_mem item hx)
    rw [closestItems, currGap_eq (hitems item List.mem_cons_self) hd, Run.done_bind,
      List.argmin_cons]
    rcases hmin : items.argmin (labelGap d.toInt) with _ | best
    · rw [hlater, hlater, hmin]
      dsimp only
      split
      · rfl
      · rfl
    · rw [hlater, hlater, hmin]
      dsimp only
      split
      · next hcurr =>
        split
        · next hbest => exact congrArg Run.done (if_pos (Int.lt_trans hbest hcurr)).symm
        · next hbest => exact congrArg Run.done (if_pos hcurr).symm
      · next hcurr =>
        by_cases hbest : labelGap d.toInt best < labelGap d.toInt item
        · rw [if_pos hbest]
        · have hfar : ¬ labelGap d.toInt best < gap := by omega
          rw [if_neg hbest]
          exact congrArg Run.done ((if_neg hfar).trans (if_neg hcurr).symm)

theorem argmin_map [LinearOrder κ] {f : α → κ} {g : β → κ} {h : α → β} (hg : ∀ a, g (h a) = f a)
    (l : List α) : (l.map h).argmin g = (l.argmin f).map h := by
  induction l with
  | nil => rfl
  | cons a l ih =>
    rw [List.map_cons, List.argmin_cons, List.argmin_cons, ih]
    rcases l.argmin f with _ | best
    · rfl
    · simp only [Option.map_some, hg]
      by_cases hcloser : f best < f a
      · rw [if_pos hcloser, if_pos hcloser, Option.map_some]
      · rw [if_neg hcloser, if_neg hcloser, Option.map_some]

theorem labelGap_item (d : Int) (mix : UInt32) (slot : Int32 × Code) :
    labelGap d (delayItem mix slot) = labelGap d slot := rfl

theorem delaySlots_labels {mix : UInt32} (h : x ∈ delaySlots mix) :
    0 < x.1.toInt ∧ x.1.toInt ≤ 96 ∨ x = (104, mn104) ∨ x = (112, mn112) ∨ 128 ≤ x.1.toInt := by
  revert x
  rcases delaySlots_eq mix with he | he
  · rw [he]
    decide +kernel
  · rw [he]
    decide +kernel

theorem delaySlots_pos {mix : UInt32} (h : x ∈ delaySlots mix) : 0 < x.1.toInt := by
  rcases delaySlots_labels h with hlow | rfl | rfl | hhigh
  · exact hlow.1
  · decide
  · decide
  · omega

variable {config : Configuration}

/-- A positive delay selects the kernel of the first of the closest slots. -/
theorem buildDelaysAndKernels_pos (hmix : config.readWriteMix ≤ 3)
    (hd : 0 < config.loadGenDelay.toInt) :
    ∃ x ∈ (delaySlots config.readWriteMix).argmin (labelGap config.loadGenDelay.toInt),
      buildDelaysAndKernels config =
        .done [delayItem config.readWriteMix x, delayItem config.readWriteMix x] := by
  have hgt : config.loadGenDelay > 0 := Int32.lt_iff_toInt_lt.2 hd
  have hone : ((1, mn1) : Int32 × Code) ∈ delaySlots config.readWriteMix := List.mem_cons_self
  obtain ⟨x, hx⟩ : ∃ x, (delaySlots config.readWriteMix).argmin
      (labelGap config.loadGenDelay.toInt) = some x := by
    apply Option.ne_none_iff_exists'.1
    rw [Ne, List.argmin_eq_none]
    exact List.ne_nil_of_mem hone
  have hclose : labelGap config.loadGenDelay.toInt (delayItem config.readWriteMix x) <
      config.loadGenDelay.toInt := by
    have hle := List.le_of_mem_argmin hone hx
    have hgap : labelGap config.loadGenDelay.toInt (1, mn1) = |1 - config.loadGenDelay.toInt| := rfl
    rw [hgap, abs_of_nonpos (by omega)] at hle
    exact Int.lt_of_le_of_lt hle (by omega)
  have hlabels : ∀ item ∈ (delaySlots config.readWriteMix).map
      (delayItem config.readWriteMix), 0 ≤ item.1.toInt := by
    intro item hitem
    obtain ⟨slot, hslot, rfl⟩ := List.mem_map.1 hitem
    have hpos := delaySlots_pos hslot
    exact Int.le_of_lt hpos
  refine ⟨x, hx, ?_⟩
  rw [buildDelaysAndKernels, if_pos hgt, getKernelsWithDelays_eq hmix, closestItems_eq hd _ hlabels,
    argmin_map (labelGap_item _ _), hx, Option.map_some]
  dsimp only
  rw [if_pos hclose]
  rfl

/-- Without a positive delay nothing is selected: the mixes below 4 measure all they list. -/
theorem buildDelaysAndKernels_all (hd : config.loadGenDelay.toInt ≤ 0) :
    ∃ first later, getKernelsWithDelays config.readWriteMix = first :: later ∧
      buildDelaysAndKernels config = .done (first :: first :: later) := by
  have hgt : ¬ config.loadGenDelay > 0 := by
    rw [gt_iff_lt, Int32.lt_iff_toInt_lt]
    exact Int.not_lt.2 hd
  have hne : ∃ first later, getKernelsWithDelays config.readWriteMix = first :: later := by
    by_cases hmix : config.readWriteMix ≤ 3
    · exact ⟨_, _, getKernelsWithDelays_eq hmix⟩
    · exact ⟨_, _, getKernelsWithDelays_other hmix⟩
  obtain ⟨first, later, hraw⟩ := hne
  refine ⟨first, later, hraw, ?_⟩
  rw [buildDelaysAndKernels, if_neg hgt, hraw]
  rfl

/-- The only item that a mix above 3 lists is not closer to a delay than the loop starts with. -/
theorem buildDelaysAndKernels_other (hmix : ¬ config.readWriteMix ≤ 3)
    (hd : 0 < config.loadGenDelay.toInt) :
    buildDelaysAndKernels config = .fault .frontOfEmptyList := by
  have hgt : config.loadGenDelay > 0 := Int32.lt_iff_toInt_lt.2 hd
  have hgap : ¬ labelGap config.loadGenDelay.toInt (0, delayKernel 2 mn256) <
      config.loadGenDelay.toInt := by
    have habs : labelGap config.loadGenDelay.toInt (0, delayKernel 2 mn256) =
        |0 - config.loadGenDelay.toInt| := rfl
    rw [habs, Int.zero_sub, abs_neg, abs_of_pos hd]
    exact Int.lt_irrefl _
  rw [buildDelaysAndKernels, if_pos hgt, getKernelsWithDelays_other hmix, closestItems_eq hd]
  · rw [List.argmin_singleton]
    dsimp only
    rw [if_neg hgap]
    rfl
  · intro item hitem
    cases List.mem_singleton.1 hitem
    exact Int.le_refl 0

/-- Every configuration selects at least one kernel and repeats the first, exactly if its mix has
kernels of its own or no delay is asked for; the differences never overflow. -/
theorem kernel_selection_nonempty (config : Configuration) :
    (∀ value, buildDelaysAndKernels config ≠ .fault (.signedOverflow value)) ∧
    ((∃ first later, buildDelaysAndKernels config = .done (first :: first :: later)) ↔
      config.readWriteMix ≤ 3 ∨ config.loadGenDelay ≤ 0) := by
  rw [Int32.le_iff_toInt_le, Int32.toInt_zero]
  by_cases hd : config.loadGenDelay.toInt ≤ 0
  · obtain ⟨first, later, -, hbuild⟩ := buildDelaysAndKernels_all hd
    rw [hbuild]
    exact ⟨fun _ => nofun, fun _ => .inr hd, fun _ => ⟨first, later, rfl⟩⟩
  · by_cases hmix : config.readWriteMix ≤ 3
    · obtain ⟨x, -, hbuild⟩ := buildDelaysAndKernels_pos hmix (Int.not_le.1 hd)
      rw [hbuild]
      exact ⟨fun _ => nofun, fun _ => .inl hmix, fun _ => ⟨_, _, rfl⟩⟩
    · rw [buildDelaysAndKernels_other hmix (Int.not_le.1 hd)]
      refine ⟨fun _ => nofun, ?_, fun h => absurd h (not_or.2 ⟨hmix, hd⟩)⟩
      rintro ⟨first, later, he⟩
      cases he

/-- A mix without kernels of its own and a delay of 5: `front` is called on an empty list. -/
theorem kernel_selection_empty :
    let numa := NumaConfig.new ⟨0, 1, 1, fun _ => true, fun _ => 2 ^ 34, fun _ => some fun _ => true⟩
    ∃ config, Configuration.parseOptions .latencyBandwidth numa
        ["cpu_loaded_latency".toList, "-m4".toList, "-d5".toList] = .done (.ok config) ∧
      buildDelaysAndKernels config = .fault .frontOfEmptyList ∧
      ¬ ∃ first later, buildDelaysAndKernels config = .done (first :: first :: later) := by
  intro numa
  let config := { Configuration.byDefault .latencyBandwidth numa with
    readWriteMix := 4, loadGenDelay := 5 }
  have hbuild : buildDelaysAndKernels config = .fault .frontOfEmptyList :=
    buildDelaysAndKernels_other (by decide) (by decide)
  refine ⟨config, by decide +kernel, hbuild, ?_⟩
  rintro ⟨first, later, he⟩
  rw [hbuild] at he
  cases he

end MmMem

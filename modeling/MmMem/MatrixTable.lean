import MmMem.Configuration
import Mathlib.Data.Rat.Floor

namespace MmMem
set_option autoImplicit true

/-- A number in a row, with the memory node it was measured on. -/
structure Cell (α : Type) where
  node : Nat
  value : α
  deriving Repr, DecidableEq

/-- The output of a matrix: the nodes of the header, then the rows with their nodes. -/
structure MatrixTable (α : Type) where
  header : List Nat
  rows : List (Nat × List (Cell α))
  deriving Repr, DecidableEq

/-- Every cell stands under the header of the memory node it was measured on. -/
def MatrixTable.Aligned (t : MatrixTable α) : Prop :=
  ∀ row ∈ t.rows, ∀ (k : Nat) (cell : Cell α), row.2[k]? = some cell →
    t.header[k]? = some cell.node

/-- The mixes of the kernels `get_kernels_with_wrmix` lists. -/
def getKernelsWithWrmix (readWriteMix : UInt32) : List UInt32 :=
  if readWriteMix = 0 then [0]
  else if readWriteMix = 1 then [1]
  else if readWriteMix = 2 then [2]
  else if readWriteMix = 3 then [3]
  else if readWriteMix = 100 then [0, 3, 2, 1]
  else [0]

/-- A round of `measure_peak_bandwidth` or `measure_idle_latency` in a matrix: the number it
prints, if any, and the integer it returns. -/
def measureRound (toUInt32 : α → UInt32) (lastMeasured : UInt32) (measured : α) :
    List α × UInt32 :=
  (if lastMeasured > 0 then [measured] else [], toUInt32 measured)

/-- The numbers `run` prints over its rounds. -/
def runRounds (toUInt32 : α → UInt32) : UInt32 → List α → List α
  | _, [] => []
  | lastMeasured, measured :: later =>
    let (shown, result) := measureRound toUInt32 lastMeasured measured
    shown ++ runRounds toUInt32 result later

/-- The matrix branch of `setup_and_run`, for what its rounds measure. -/
def matrixTable (numa : NumaConfig) (minMem : Int) (numRounds : Nat) (toUInt32 : α → UInt32)
    (measured : Nat → Nat → Nat → α) : MatrixTable α where
  header := List.range numa.numNumaNodes
  rows := (matrixRows numa minMem).map fun (i, nodes) => (i, nodes.flatMap fun j =>
    (runRounds toUInt32 0 ((List.range numRounds).map (measured i j))).map (Cell.mk j))

/-- `cpu_peak_bandwidth --bandwidth_matrix`: `run` repeats the first of its kernels. -/
def peakBandwidthMatrix (numa : NumaConfig) (config : Configuration) (toGbps : α → UInt32)
    (measured : Nat → Nat → Nat → α) : MatrixTable α :=
  let kernels := getKernelsWithWrmix config.correctReadWriteMix.readWriteMix
  matrixTable numa (2 <<< 30) (kernels.take 1 ++ kernels).length toGbps measured

/-- `cpu_idle_latency --latency_matrix` -/
def idleLatencyMatrix (numa : NumaConfig) (toPs : α → UInt32)
    (measured : Nat → Nat → Nat → α) : MatrixTable α :=
  matrixTable numa (1 <<< 30) 2 toPs measured

/-- The row of node `i` has a cell for node `j`: its memory is large enough, and the round that
warms up does not return 0. -/
def HasCell (numa : NumaConfig) (minMem : Int) (toUInt32 : α → UInt32)
    (measured : Nat → Nat → Nat → α) (i j : Nat) : Prop :=
  minMem ≤ numa.nodeToMem j ∧ 0 < toUInt32 (measured i j 0)

instance : Decidable (HasCell numa minMem toUInt32 measured i j) := by
  unfold HasCell
  infer_instance

/-- In no row, a node without a cell comes before one with a cell. -/
def NoGaps (numa : NumaConfig) (minMem : Int) (toUInt32 : α → UInt32)
    (measured : Nat → Nat → Nat → α) : Prop :=
  ∀ i < numa.numNumaNodes, numa.nodeToAllowedCpus i ≠ [] → ∀ j < numa.numNumaNodes,
    HasCell numa minMem toUInt32 measured i j →
      ∀ j' < j, HasCell numa minMem toUInt32 measured i j'

theorem filter_range_initial {p : Nat → Bool}
    (h : ∀ j < n, p j = true → ∀ i < j, p i = true) :
    ∃ m ≤ n, (List.range n).filter p = List.range m := by
  induction n with
  | zero => exact ⟨0, Nat.le_refl 0, rfl⟩
  | succ n ih =>
    obtain ⟨m, hm, heq⟩ := ih fun j hj => h j (Nat.lt_succ_of_lt hj)
    rw [List.range_succ, List.filter_append]
    cases hp : p n with
    | false =>
      rw [List.filter_singleton, hp, heq]
      exact ⟨m, Nat.le_succ_of_le hm, List.append_nil _⟩
    | true =>
      have hall : ∀ i ∈ List.range n, p i = true := by
        intro i hi
        exact h n (Nat.lt_succ_self n) hp i (List.mem_range.1 hi)
      rw [List.filter_eq_self.2 hall, List.filter_singleton, hp]
      exact ⟨n + 1, Nat.le_refl _, List.range_succ.symm⟩

/-- The `k`-th number chosen from a range is `k` exactly if no choice is passed over. -/
theorem filter_range_getElem_iff {p : Nat → Bool} :
    (∀ k j : Nat, ((List.range n).filter p)[k]? = some j → j = k) ↔
      ∀ j < n, p j = true → ∀ i < j, p i = true := by
  constructor
  · intro h j hj hp i hi
    obtain ⟨k, hk⟩ := List.mem_iff_getElem?.1
      (List.mem_filter.2 ⟨List.mem_range.2 hj, hp⟩)
    have hjk := h k j hk
    subst hjk
    obtain ⟨hlen, -⟩ := List.getElem?_eq_some_iff.1 hk
    have hget := List.getElem?_eq_getElem (Nat.lt_trans hi hlen)
    have hmem := List.mem_of_getElem? hget
    rw [h i _ hget] at hmem
    exact (List.mem_filter.1 hmem).2
  · intro h k j hk
    obtain ⟨m, -, heq⟩ := filter_range_initial h
    rw [heq, List.getElem?_range] at hk
    · exact (Option.some.inj hk).symm
    · by_contra hlt
      rw [List.getElem?_eq_none (by rw [List.length_range]; omega)] at hk
      cases hk

theorem runRounds_two (toUInt32 : α → UInt32) (measured : Nat → α) :
    runRounds toUInt32 0 ((List.range 2).map measured) =
      if 0 < toUInt32 (measured 0) then [measured 1] else [] := by
  have hrange : (List.range 2).map measured = [measured 0, measured 1] := rfl
  rw [hrange]
  simp only [runRounds, measureRound, List.append_nil]
  rfl

theorem row_cells (numa : NumaConfig) (minMem : Int) (toUInt32 : α → UInt32)
    (measured : Nat → Nat → Nat → α) (i n : Nat) :
    (((List.range n).filter fun j => ¬ numa.nodeToMem j < minMem).flatMap fun j =>
      (runRounds toUInt32 0 ((List.range 2).map (measured i j))).map (Cell.mk j)) =
    ((List.range n).filter fun j => HasCell numa minMem toUInt32 measured i j).map
      fun j => ⟨j, measured i j 1⟩ := by
  induction List.range n with
  | nil => rfl
  | cons j nodes ih =>
    by_cases hmem : numa.nodeToMem j < minMem
    · have hno : ¬ HasCell numa minMem toUInt32 measured i j := fun h => absurd hmem h.1.not_gt
      simpa [hmem, hno] using ih
    · by_cases hwarm : 0 < toUInt32 (measured i j 0)
      · have hcell : HasCell numa minMem toUInt32 measured i j := ⟨Int.not_lt.1 hmem, hwarm⟩
        rw [List.filter_cons_of_pos (by simpa using hmem), List.flatMap_cons, ih,
          List.filter_cons_of_pos (by simpa using hcell), runRounds_two, if_pos hwarm]
        rfl
      · have hno : ¬ HasCell numa minMem toUInt32 measured i j := fun h => hwarm h.2
        rw [List.filter_cons_of_pos (by simpa using hmem), List.flatMap_cons, ih,
          List.filter_cons_of_neg (by simpa using hno), runRounds_two, if_neg hwarm]
        rfl

/-- The cells of a row of the table, one for each node that has a cell. -/
def rowCells (numa : NumaConfig) (minMem : Int) (toUInt32 : α → UInt32)
    (measured : Nat → Nat → Nat → α) (i : Nat) : List (Cell α) :=
  ((List.range numa.numNumaNodes).filter fun j => HasCell numa minMem toUInt32 measured i j).map
    fun j => ⟨j, measured i j 1⟩

theorem mem_matrixTable_rows {numa : NumaConfig} :
    row ∈ (matrixTable numa minMem 2 toUInt32 measured).rows ↔
      ∃ i < numa.numNumaNodes, numa.nodeToAllowedCpus i ≠ [] ∧
        (i, rowCells numa minMem toUInt32 measured i) = row := by
  simp only [matrixTable, matrixRows, List.mem_map, List.mem_filter, List.mem_range, rowCells,
    ← row_cells]
  constructor
  · rintro ⟨_, ⟨i, ⟨hi, hcpus⟩, rfl⟩, rfl⟩
    exact ⟨i, hi, by simpa using hcpus, rfl⟩
  · rintro ⟨i, hi, hcpus, rfl⟩
    exact ⟨_, ⟨i, ⟨hi, by simpa using hcpus⟩, rfl⟩, rfl⟩

theorem rowCells_aligned_iff {numa : NumaConfig} :
    (∀ (k : Nat) cell, (rowCells numa minMem toUInt32 measured i)[k]? = some cell →
      (List.range numa.numNumaNodes)[k]? = some cell.node) ↔
      ∀ j < numa.numNumaNodes, HasCell numa minMem toUInt32 measured i j →
        ∀ j' < j, HasCell numa minMem toUInt32 measured i j' := by
  have hiff := filter_range_getElem_iff (n := numa.numNumaNodes)
    (p := fun j => decide (HasCell numa minMem toUInt32 measured i j))
  simp only [decide_eq_true_eq] at hiff
  rw [← hiff]
  constructor
  · intro h k j hk
    have hget := h k ⟨j, measured i j 1⟩ (by rw [rowCells, List.getElem?_map, hk]; rfl)
    obtain ⟨hlt, hget⟩ := List.getElem?_eq_some_iff.1 hget
    rw [List.getElem_range] at hget
    exact hget.symm
  · intro h k cell hk
    rw [rowCells, List.getElem?_map] at hk
    obtain ⟨j, hj, rfl⟩ := Option.map_eq_some_iff.1 hk
    have hmem := (List.mem_filter.1 (List.mem_of_getElem? hj)).1
    rw [h k j hj] at hmem ⊢
    exact List.getElem?_range (List.mem_range.1 hmem)

theorem matrixTable_aligned_iff (numa : NumaConfig) (minMem : Int) (toUInt32 : α → UInt32)
    (measured : Nat → Nat → Nat → α) :
    (matrixTable numa minMem 2 toUInt32 measured).Aligned ↔
      NoGaps numa minMem toUInt32 measured := by
  constructor
  · intro h i hi hcpus
    apply rowCells_aligned_iff.1
    exact h (i, _) (mem_matrixTable_rows.2 ⟨i, hi, hcpus, rfl⟩)
  · intro h row hrow
    obtain ⟨i, hi, hcpus, rfl⟩ := mem_matrixTable_rows.1 hrow
    exact rowCells_aligned_iff.2 (h i hi hcpus)

/-- A matrix does not sweep the mixes, so it measures one kernel and repeats it. -/
theorem matrix_rounds {config : Configuration} (hmatrix : config.bandwidthMatrix = true) :
    let kernels := getKernelsWithWrmix config.correctReadWriteMix.readWriteMix
    (kernels.take 1 ++ kernels).length = 2 := by
  intro kernels
  have hmix : config.correctReadWriteMix.readWriteMix ≠ 100 := by
    rw [Configuration.correctReadWriteMix]
    by_cases h : config.readWriteMix.toNat = readWriteMixSweep
    · rw [if_pos ⟨hmatrix, h⟩]
      exact ne_of_beq_false rfl
    · rw [if_neg fun hand => h hand.2]
      intro he
      rw [he] at h
      exact h rfl
  have hone : kernels.length = 1 := by
    simp only [kernels, getKernelsWithWrmix, if_neg hmix]
    split_ifs <;> rfl
  rw [List.length_append, List.length_take, hone]
  rfl

/-- The columns of the matrices stand under their headers exactly if no row has a gap: neither of
the programs prints anything in the place of a cell it leaves out. -/
theorem matrices_aligned_iff (h : NumaMachine) (config : Configuration) (toGbps toPs : α → UInt32)
    (measured : Nat → Nat → Nat → α) (hmatrix : config.bandwidthMatrix = true) :
    ((peakBandwidthMatrix (.new h) config toGbps measured).Aligned ↔
      NoGaps (.new h) (2 <<< 30) toGbps measured) ∧
    ((idleLatencyMatrix (.new h) toPs measured).Aligned ↔
      NoGaps (.new h) (1 <<< 30) toPs measured) := by
  constructor
  · rw [peakBandwidthMatrix, matrix_rounds hmatrix]
    exact matrixTable_aligned_iff _ _ _ _
  · exact matrixTable_aligned_iff _ _ _ _

/-- Two nodes with a cpu each; the second of them has 4 GiB. -/
def twoNodes (firstSize : Int) : NumaMachine where
  maxNode := 1
  hardwareConcurrency := 2
  possibleCpus := 2
  allowed _ := true
  nodeSize node := if node = 0 then firstSize else 4 <<< 30
  nodeCpus node := some fun cpu => cpu = node

theorem matrices_aligned_iff_large :
    let config := { Configuration.byDefault .bandwidth (.new (twoNodes (4 <<< 30))) with
      bandwidthMatrix := true }
    (peakBandwidthMatrix (.new (twoNodes (4 <<< 30))) config (fun gbps : Rat => .ofInt gbps.floor)
      fun _ _ _ => 25 / 2).Aligned := by
  intro config
  apply (matrices_aligned_iff (twoNodes (4 <<< 30)) config (fun gbps : Rat => .ofInt gbps.floor)
    (fun ps => .ofInt ps.floor) (fun _ _ _ => 25 / 2) rfl).1.2
  rw [NoGaps]
  decide +kernel

/-- The bandwidth of the second node stands under the header of the first. -/
theorem matrix_column_shifts :
    let config := { Configuration.byDefault .bandwidth (.new (twoNodes (1 <<< 29))) with
      bandwidthMatrix := true }
    let table := peakBandwidthMatrix (.new (twoNodes (1 <<< 29))) config
      (fun gbps : Rat => .ofInt gbps.floor) fun _ _ _ => 25 / 2
    table = ⟨[0, 1], [(0, [⟨1, 25 / 2⟩]), (1, [⟨1, 25 / 2⟩])]⟩ ∧ ¬ table.Aligned := by
  intro config table
  have htable : table = ⟨[0, 1], [(0, [⟨1, 25 / 2⟩]), (1, [⟨1, 25 / 2⟩])]⟩ := by
    decide +kernel
  refine ⟨htable, ?_⟩
  rw [htable]
  intro h
  cases h (0, [⟨1, 25 / 2⟩]) List.mem_cons_self 0 ⟨1, 25 / 2⟩ rfl

end MmMem

import MmMem.BranchChain
import MmMem.Configuration
import MmMem.Library.FloatOrder
import MmMem.RandomSequence
import Mathlib.Order.Filter.AtTopBot.Basic
import Mathlib.Order.Filter.Finite

namespace MmMem
open Prog
set_option autoImplicit true

/-- A line of the table of `cpu_branch_throughput`, with what its worker has measured. -/
structure BranchRow (σ : Type) where
  caseNumber : Nat
  thread : Nat
  kernel : BranchCase
  measured : BranchResult Float σ
  rate : Float
  perCycle : Option Float
  deriving Repr, DecidableEq

/-- A line about the best rates of a worker. -/
structure BestObserved where
  thread : Nat
  rate : Float
  perCycle : Option Float
  deriving Repr, DecidableEq

/-- The variables of `main`, and what it has printed. -/
structure BranchSweep (σ : Type) where
  rows : List (BranchRow σ)
  peakRate : List Float
  peakPerCycle : List Float
  counterWarning : Bool
  warnings : List Text
  deriving Repr, DecidableEq

/-- The machine under the workers: the readings of its clocks and counters are told apart by case
and thread. -/
structure BranchHost (σ : Type) where
  run : BranchCase → Nat → σ → Run Fault σ
  fresh : σ
  counter : Nat → Nat → CycleCounter Float
  clock : Nat → Nat → Nat → Int
  fuel : Nat

def branchRow (index tid : Nat) (kernel : BranchCase) (pkt : BranchResult Float σ) : BranchRow σ where
  caseNumber := index + 1
  thread := tid
  kernel
  measured := pkt
  rate := (UInt64.ofNat pkt.state.finishedBranches).toFloat / pkt.execTime / 1e9
  perCycle :=
    if pkt.cycles > 0 then some ((UInt64.ofNat pkt.state.finishedBranches).toFloat / pkt.cycles)
    else none

namespace BranchSweep

def start (numThreads : Nat) : BranchSweep σ where
  rows := []
  peakRate := List.replicate numThreads 0
  peakPerCycle := List.replicate numThreads 0
  counterWarning := false
  warnings := []

/-- A trip of the loop that prints what the workers have measured. -/
def report (index : Nat) (kernel : BranchCase) (packets : List (BranchResult Float σ)) (tid : Nat)
    (s : BranchSweep σ) : Run Fault (BranchSweep σ) := do
  let pkt ← vectorAt packets tid
  let row := branchRow index tid kernel pkt
  let rate ← vectorAt s.peakRate tid
  let peakRate ← vectorSet s.peakRate tid (floatMax rate row.rate)
  let s := { s with rows := s.rows ++ [row], peakRate }
  match row.perCycle with
  | some perCycle =>
    let best ← vectorAt s.peakPerCycle tid
    let peakPerCycle ← vectorSet s.peakPerCycle tid (floatMax best perCycle)
    return { s with peakPerCycle }
  | none =>
    if s.counterWarning then return s
    else return { s with counterWarning := true, warnings := s.warnings ++ [pkt.counterError] }

/-- A case: the workers run side by side, and are reported one after the other. -/
def measureCase (host : BranchHost σ) (numThreads : Nat) (duration : Float) (index : Nat)
    (s : BranchSweep σ) : Run Fault (BranchSweep σ) := do
  let kernel ← vectorAt branchCases index
  let packets ← Run.all ((List.range numThreads).map fun tid =>
    branchTp elapsedSeconds (host.counter index tid) host.run (host.clock index tid) host.fuel
      ⟨index, duration⟩ host.fresh)
  Run.loop (report index kernel packets) numThreads 0 s

def bestObserved (s : BranchSweep σ) (tid : Nat) (lines : List BestObserved) :
    Run Fault (List BestObserved) := do
  let rate ← vectorAt s.peakRate tid
  let perCycle ← vectorAt s.peakPerCycle tid
  return lines ++ [⟨tid, rate, if perCycle > 0 then some perCycle else none⟩]

end BranchSweep

def branchCaseCount : Nat := 12

/-- The cases a configuration asks for, from `first` up to but not including `end`. -/
def Configuration.branchRange (config : Configuration) : Nat × Nat :=
  if config.branchCase ≠ 0 then (config.branchCase.toNat - 1, config.branchCase.toNat)
  else (0, branchCaseCount)

/-- `main` of `cpu_branch_throughput` once the options are parsed; `none` is an exit with 1. -/
def cpuBranchThroughput (host : BranchHost σ) (config : Configuration) :
    Run Fault (Option (BranchSweep σ × List BestObserved)) :=
  if config.numThreads = 0 ∨ config.targetDurationS = 0 ∨ config.branchCase.toNat > branchCaseCount
  then .done none
  else do
    let (first, last) := config.branchRange
    let duration := config.targetDurationS.toFloat / (UInt32.ofNat (last - first)).toFloat
    let numThreads := config.numThreads.toNat
    let s ← Run.loop (BranchSweep.measureCase host numThreads duration) (last - first) first
      (.start numThreads)
    let lines ← Run.loop s.bestObserved numThreads 0 []
    return some (s, lines)

theorem vectorSet_map_range {f : Nat → α} (hi : i < n) (x : α) :
    vectorSet ((List.range n).map f) i x =
      .done ((List.range n).map fun j => if j = i then x else f j) := by
  rw [vectorSet, if_pos (by rwa [List.length_map, List.length_range])]
  congr 1
  apply List.ext_getElem?
  intro j
  rw [List.getElem?_set, List.getElem?_map, List.getElem?_map, List.length_map, List.length_range]
  by_cases hj : j < n
  · rw [List.getElem?_range hj, if_pos hi]
    by_cases he : i = j
    · rw [if_pos he, Option.map_some, if_pos he.symm]
    · rw [if_neg he, Option.map_some, Option.map_some, if_neg fun h => he h.symm]
  · rw [List.getElem?_eq_none (by rw [List.length_range]; omega), if_neg (by omega)]
    rfl

def ratesOf (t : Nat) (rows : List (BranchRow σ)) : List Float :=
  (rows.filter (·.thread = t)).map (·.rate)

def perCyclesOf (t : Nat) (rows : List (BranchRow σ)) : List Float :=
  (rows.filter (·.thread = t)).filterMap (·.perCycle)

theorem ratesOf_append (t : Nat) (rows : List (BranchRow σ)) (row : BranchRow σ) :
    best (ratesOf t (rows ++ [row])) =
      if t = row.thread then floatMax (best (ratesOf t rows)) row.rate else best (ratesOf t rows) := by
  rw [ratesOf, List.filter_append, List.map_append]
  by_cases h : t = row.thread
  · rw [if_pos h, List.filter_cons_of_pos (by exact decide_eq_true h.symm), List.filter_nil,
      List.map_singleton, best_append]
    rfl
  · rw [if_neg h, List.filter_cons_of_neg (by exact fun he => h (of_decide_eq_true he).symm),
      List.filter_nil, List.map_nil, List.append_nil]
    rfl

theorem perCyclesOf_append (t : Nat) (rows : List (BranchRow σ)) (row : BranchRow σ) :
    best (perCyclesOf t (rows ++ [row])) = match row.perCycle with
      | some x => if t = row.thread then floatMax (best (perCyclesOf t rows)) x
        else best (perCyclesOf t rows)
      | none => best (perCyclesOf t rows) := by
  rw [perCyclesOf, List.filter_append, List.filterMap_append]
  by_cases h : t = row.thread
  · rw [List.filter_cons_of_pos (by exact decide_eq_true h.symm), List.filter_nil]
    cases hx : row.perCycle with
    | some x =>
      rw [List.filterMap_cons_some hx, List.filterMap_nil, best_append]
      exact (if_pos h).symm
    | none =>
      rw [List.filterMap_cons_none hx, List.filterMap_nil, List.append_nil]
      rfl
  · rw [List.filter_cons_of_neg (by exact fun he => h (of_decide_eq_true he).symm),
      List.filter_nil, List.filterMap_nil, List.append_nil]
    cases row.perCycle with
    | some x => exact (if_neg h).symm
    | none => rfl

/-- The best rates after one more row, from those before it. -/
theorem vectorSet_ratesOf (rows : List (BranchRow σ)) {row : BranchRow σ}
    (h : row.thread < n) :
    vectorSet ((List.range n).map fun t => best (ratesOf t rows)) row.thread
        (floatMax (best (ratesOf row.thread rows)) row.rate) =
      .done ((List.range n).map fun t => best (ratesOf t (rows ++ [row]))) := by
  rw [vectorSet_map_range h]
  congr 2
  funext t
  rw [ratesOf_append]
  by_cases ht : t = row.thread
  · rw [if_pos ht, if_pos ht, ht]
  · rw [if_neg ht, if_neg ht]

theorem vectorSet_perCyclesOf (rows : List (BranchRow σ)) {row : BranchRow σ}
    (h : row.thread < n) (hrow : row.perCycle = some x) :
    vectorSet ((List.range n).map fun t => best (perCyclesOf t rows)) row.thread
        (floatMax (best (perCyclesOf row.thread rows)) x) =
      .done ((List.range n).map fun t => best (perCyclesOf t (rows ++ [row]))) := by
  rw [vectorSet_map_range h]
  congr 2
  funext t
  rw [perCyclesOf_append, hrow]
  dsimp only
  by_cases ht : t = row.thread
  · rw [if_pos ht, if_pos ht, ht]
  · rw [if_neg ht, if_neg ht]

theorem perCyclesOf_uncounted (rows : List (BranchRow σ)) {row : BranchRow σ}
    (hrow : row.perCycle = none) (t : Nat) :
    best (perCyclesOf t (rows ++ [row])) = best (perCyclesOf t rows) := by
  rw [perCyclesOf_append, hrow]

namespace BranchSweep

/-- The variables say of the rows what they are printed for. -/
structure Tallied (n : Nat) (s : BranchSweep σ) : Prop where
  rate : s.peakRate = (List.range n).map fun t => best (ratesOf t s.rows)
  perCycle : s.peakPerCycle = (List.range n).map fun t => best (perCyclesOf t s.rows)
  counterWarning : s.counterWarning = s.rows.any fun row => row.perCycle.isNone
  warnings : s.warnings = ((s.rows.find? fun row => row.perCycle.isNone).map fun row =>
    row.measured.counterError).toList

variable {s : BranchSweep σ} {packets : List (BranchResult Float σ)}

theorem Tallied.start (n : Nat) : (start n : BranchSweep σ).Tallied n where
  rate := by
    change _ = (List.range n).map fun _ => (0 : Float)
    rw [List.map_const', List.length_range]
    rfl
  perCycle := by
    change _ = (List.range n).map fun _ => (0 : Float)
    rw [List.map_const', List.length_range]
    rfl
  counterWarning := rfl
  warnings := rfl

theorem Tallied.report_row (hs : s.Tallied n) (htid : tid < n) (hpkt : packets[tid]? = some pkt)
    (index : Nat) (kernel : BranchCase) : ∃ s', s.report index kernel packets tid = .done s' ∧
      s'.Tallied n ∧ s'.rows = s.rows ++ [branchRow index tid kernel pkt] := by
  have hrate : vectorAt s.peakRate tid = .done (best (ratesOf tid s.rows)) := by
    rw [hs.rate, vectorAt, List.getElem?_map, List.getElem?_range htid]
    rfl
  have hperCycle : vectorAt s.peakPerCycle tid = .done (best (perCyclesOf tid s.rows)) := by
    rw [hs.perCycle, vectorAt, List.getElem?_map, List.getElem?_range htid]
    rfl
  let row := branchRow index tid kernel pkt
  have hthread : row.thread < n := htid
  have hpeakRate : vectorSet s.peakRate tid (floatMax (best (ratesOf tid s.rows)) row.rate) =
      .done ((List.range n).map fun t => best (ratesOf t (s.rows ++ [row]))) :=
    hs.rate ▸ vectorSet_ratesOf s.rows hthread
  rw [BranchSweep.report, vectorAt, hpkt]
  dsimp only
  rw [Run.done_bind, hrate, Run.done_bind, hpeakRate, Run.done_bind]
  cases hrow : row.perCycle with
  | some x =>
    have hisNone : row.perCycle.isNone = false := by rw [hrow]; rfl
    have hpeakPerCycle : vectorSet s.peakPerCycle tid (floatMax (best (perCyclesOf tid s.rows)) x) =
        .done ((List.range n).map fun t => best (perCyclesOf t (s.rows ++ [row]))) :=
      hs.perCycle ▸ vectorSet_perCyclesOf s.rows hthread hrow
    dsimp only
    rw [hperCycle, Run.done_bind, hpeakPerCycle, Run.done_bind]
    refine ⟨_, rfl, ⟨rfl, rfl, ?_, ?_⟩, rfl⟩
    · dsimp only
      rw [hs.counterWarning, List.any_append, List.any_cons, hisNone]
      rw [List.any_nil, Bool.or_self, Bool.or_false]
    · dsimp only
      rw [hs.warnings, List.find?_append, List.find?_cons, hisNone]
      rw [List.find?_nil, Option.or_none]
  | none =>
    have hisNone : row.perCycle.isNone = true := by rw [hrow]; rfl
    dsimp only
    have hany : s.rows.any (fun row => row.perCycle.isNone) =
        (s.rows.find? fun row => row.perCycle.isNone).isSome := List.isSome_find?.symm
    have hsame : s.peakPerCycle =
        (List.range n).map fun t => best (perCyclesOf t (s.rows ++ [row])) :=
      hs.perCycle.trans (List.map_congr_left fun t _ => (perCyclesOf_uncounted s.rows hrow t).symm)
    split
    · next hwarned =>
      refine ⟨_, rfl, ⟨rfl, hsame, ?_, ?_⟩, rfl⟩
      · dsimp only
        rw [List.any_append, List.any_cons, hisNone, Bool.true_or, Bool.or_true]
        exact hwarned
      · dsimp only
        rw [hs.counterWarning, hany] at hwarned
        obtain ⟨first, hfirst⟩ := Option.isSome_iff_exists.1 hwarned
        rw [hs.warnings, List.find?_append, hfirst, Option.some_or]
    · next hfresh =>
      refine ⟨_, rfl, ⟨rfl, hsame, ?_, ?_⟩, rfl⟩
      · dsimp only
        rw [List.any_append, List.any_cons, hisNone, Bool.true_or, Bool.or_true]
      · dsimp only
        rw [hs.counterWarning, hany, Option.not_isSome_iff_eq_none] at hfresh
        rw [hs.warnings, List.find?_append, hfresh, Option.none_or, List.find?_cons, hisNone]
        rfl

theorem Tallied.report_rows (hs : s.Tallied n) (hlen : packets.length = n) (index : Nat)
    (kernel : BranchCase) : ∃ s', Run.loop (report index kernel packets) n 0 s = .done s' ∧
      s'.Tallied n ∧ s'.rows = s.rows ++ packets.mapIdx fun tid => branchRow index tid kernel := by
  have hloop : ∀ i ≤ n, ∃ s', Run.loop (report index kernel packets) i 0 s = .done s' ∧
      s'.Tallied n ∧
        s'.rows = s.rows ++ (packets.take i).mapIdx fun tid => branchRow index tid kernel := by
    intro i hi
    induction i with
    | zero => exact ⟨s, rfl, hs, by rw [List.take_zero, List.mapIdx_nil, List.append_nil]⟩
    | succ i ih =>
      obtain ⟨t, hdone, ht, hrows⟩ := ih (Nat.le_of_succ_le hi)
      have hlt : i < packets.length := hlen ▸ hi
      obtain ⟨s', hreport, hs', hrows'⟩ :=
        ht.report_row hi (List.getElem?_eq_getElem hlt) index kernel
      refine ⟨s', ?_, hs', ?_⟩
      · rw [Run.loop_succ, hdone, Run.done_bind, Nat.zero_add]
        exact hreport
      · rw [hrows', hrows, List.append_assoc, List.take_succ_eq_append_getElem hlt,
          List.mapIdx_append, List.mapIdx_singleton, List.length_take, Nat.zero_add,
          Nat.min_eq_left (Nat.le_of_lt hlt)]
  obtain ⟨s', hdone, hs', hrows⟩ := hloop n (Nat.le_refl n)
  rw [← hlen, List.take_length] at hrows
  exact ⟨s', hdone, hs', hrows⟩

end BranchSweep

/-- The host executes the batches of the kernels, each of which takes what is counted for it. -/
structure BranchHost.Executes (host : BranchHost (List Nat)) : Prop where
  run : ∀ kernel ∈ branchCases, ∀ batches, host.run kernel batchRounds batches =
    .done (batches ++ [takenBranches kernel.branches batchRounds])
  fresh : host.fresh = []

/-- A measurement that lasted as asked, with the branches that its timed batches have taken. -/
structure BranchResult.Measures (duration : Float) (r : BranchResult Float (List Nat)) : Prop where
  longEnough : duration ≤ r.execTime
  counted : r.state.finishedBranches = u64 r.state.cursor.tail.sum

theorem branchLoop_safe {getElapsedTime : Int → Float} {run : Nat → σ → Run Fault σ}
    (hrun : ∀ c, ∃ c', run batchRounds c = .done c') (clock : Nat → Int) (batchBranches : Nat)
    (sampleDuration : Float) (fuel : Nat) (s : BranchState σ) : Run.Safe (fun _ => True)
      (branchLoop getElapsedTime run clock batchBranches sampleDuration fuel s) := by
  induction fuel generalizing s with
  | zero => exact .running
  | succ fuel ih =>
    obtain ⟨c', hc'⟩ := hrun s.cursor
    rw [branchLoop, hc', Run.done_bind]
    dsimp only
    split
    · exact .done trivial
    · exact ih _

variable {host : BranchHost (List Nat)}

theorem BranchHost.Executes.branchTp_safe (h : host.Executes)
    (hkernel : branchCases[index]? = some kernel) (counter : CycleCounter Float) (clock : Nat → Int)
    (fuel : Nat) (duration : Float) : Run.Safe (BranchResult.Measures duration)
      (branchTp elapsedSeconds counter host.run clock fuel ⟨index, duration⟩ host.fresh) := by
  have hrun := h.run kernel (List.mem_of_getElem? hkernel)
  rw [h.fresh]
  cases hdone : branchTp elapsedSeconds counter host.run clock fuel ⟨index, duration⟩ [] with
  | done r =>
    obtain ⟨kernel', hkernel', haccounted⟩ := branchTp_accounted hdone
    rw [hkernel] at hkernel'
    cases hkernel'
    have hbatches := branchTp_batches hkernel hrun hdone
    refine .done ⟨?_, ?_⟩
    · obtain ⟨_, -, hdone⟩ := Run.bind_eq_done.1 hdone
      obtain ⟨_, -, hdone⟩ := Run.bind_eq_done.1 hdone
      obtain ⟨_, -, hdone⟩ := Run.bind_eq_done.1 hdone
      cases hdone
      exact haccounted.reached
    · rw [haccounted.counted, hbatches, List.tail_replicate, List.sum_replicate, smul_eq_mul,
        Nat.mul_comm]
  | fault e =>
    rw [branchTp, vectorAt, hkernel] at hdone
    dsimp only at hdone
    rw [Run.done_bind, hrun, Run.done_bind] at hdone
    rcases Run.bind_eq_fault.1 hdone with hdone | ⟨_, -, hdone⟩
    · exact absurd hdone (branchLoop_safe (fun c => ⟨_, hrun c⟩) ..).not_fault
    · cases hdone
  | running => exact .running

/-- What a row says, for cases that each measure so long: its rates are what doubles make of the
branches that its timed batches have taken. -/
structure BranchRow.Right (duration : Float) (row : BranchRow (List Nat)) : Prop where
  kernel : branchCases[row.caseNumber - 1]? = some row.kernel
  longEnough : duration ≤ row.measured.execTime
  rate : row.rate = (UInt64.ofNat row.measured.state.cursor.tail.sum).toFloat /
    row.measured.execTime / 1e9
  perCycle : row.perCycle = if 0 < row.measured.cycles
    then some ((UInt64.ofNat row.measured.state.cursor.tail.sum).toFloat / row.measured.cycles)
    else none

theorem BranchResult.Measures.taken {duration : Float} {r : BranchResult Float (List Nat)}
    (h : r.Measures duration) :
    UInt64.ofNat r.state.finishedBranches = UInt64.ofNat r.state.cursor.tail.sum := by
  rw [h.counted, u64, UInt64.ofNat_mod_size]

theorem branchRow_right {duration : Float} (hkernel : branchCases[index]? = some kernel)
    {pkt : BranchResult Float (List Nat)} (h : pkt.Measures duration) (tid : Nat) :
    (branchRow index tid kernel pkt).Right duration where
  kernel := hkernel
  longEnough := h.longEnough
  rate := by
    rw [branchRow, h.taken]
  perCycle := by
    rw [branchRow, h.taken]

namespace BranchSweep

theorem Tallied.bestObserved {s : BranchSweep σ} (hs : s.Tallied n) :
    Run.loop s.bestObserved n 0 [] = .done ((List.range n).map fun t =>
      ⟨t, best (ratesOf t s.rows), if best (perCyclesOf t s.rows) > 0
        then some (best (perCyclesOf t s.rows)) else none⟩) := by
  have htrip : ∀ t < n, ∀ lines, s.bestObserved (0 + t) lines = .done (lines ++
      [⟨t, best (ratesOf t s.rows), if best (perCyclesOf t s.rows) > 0
        then some (best (perCyclesOf t s.rows)) else none⟩]) := by
    intro t ht lines
    rw [Nat.zero_add, BranchSweep.bestObserved, hs.rate, hs.perCycle, vectorAt, vectorAt,
      List.getElem?_map, List.getElem?_map, List.getElem?_range ht]
    rfl
  rw [Run.loop_congr (k := 0) (g := fun t lines => .done (lines ++ [_]))
    fun t ht lines => (htrip t ht lines).trans (by rw [Nat.zero_add]),
    Run.loop_append fun _ _ => rfl, List.nil_append, List.range_eq_range']

/-- The rows of the cases behind `first`, so far. -/
structure Rows (n : Nat) (duration : Float) (first k : Nat) (s : BranchSweep (List Nat)) : Prop where
  tallied : s.Tallied n
  order : s.rows.map (fun row => (row.caseNumber, row.thread)) =
    (List.range' first (k - first)).flatMap fun i => (List.range n).map fun t => (i + 1, t)
  right : ∀ row ∈ s.rows, row.Right duration

theorem Rows.count {duration : Float} {s : BranchSweep (List Nat)}
    (hs : s.Rows n duration first k) (ht : t < n) :
    (s.rows.filter (·.thread = t)).length = k - first := by
  have hcount : (s.rows.map fun row => (row.caseNumber, row.thread)).countP (·.2 = t) =
      k - first := by
    have hone : ∀ i, ((List.range n).map fun t => (i + 1, t)).countP (·.2 = t) = 1 := by
      intro i
      rw [List.countP_map]
      exact List.count_eq_one_of_mem List.nodup_range (List.mem_range.2 ht)
    have hones : (List.countP (·.2 = t) ∘ fun i => (List.range n).map fun t => (i + 1, t)) =
        fun _ : Nat => 1 := funext hone
    rw [hs.order, List.countP_flatMap, hones, List.map_const', List.sum_replicate, smul_eq_mul,
      Nat.mul_one, List.length_range']
  rw [← List.countP_eq_length_filter, ← hcount, List.countP_map]
  rfl

end BranchSweep

namespace BranchSweep

theorem Rows.measureCase {duration : Float} (h : host.Executes)
    {s : BranchSweep (List Nat)} (hs : s.Rows n duration first k) (hk : k < branchCaseCount)
    (hle : first ≤ k) :
    Run.Safe (Rows n duration first (k + 1)) (measureCase host n duration k s) := by
  obtain ⟨kernel, hkernel⟩ : ∃ kernel, branchCases[k]? = some kernel :=
    ⟨_, List.getElem?_eq_getElem hk⟩
  rw [BranchSweep.measureCase, vectorAt, hkernel]
  dsimp only
  rw [Run.done_bind]
  apply (Run.Safe.all (P := BranchResult.Measures duration) _).bind
  · rintro packets ⟨hlen, hmeasures⟩
    rw [List.length_map, List.length_range] at hlen
    obtain ⟨s', hdone, htallied, hrows⟩ := hs.tallied.report_rows hlen k kernel
    rw [hdone]
    refine .done ⟨htallied, ?_, ?_⟩
    · have hnew : (packets.mapIdx fun tid => branchRow k tid kernel).map
          (fun row => (row.caseNumber, row.thread)) = (List.range n).map fun t => (k + 1, t) := by
        apply List.ext_getElem
        · rw [List.length_map, List.length_mapIdx, List.length_map, List.length_range, hlen]
        · intro i _ _
          rw [List.getElem_map, List.getElem_mapIdx, List.getElem_map, List.getElem_range]
          rfl
      rw [hrows, List.map_append, hs.order, hnew, Nat.succ_sub hle, List.range'_1_concat,
        List.flatMap_append, List.flatMap_singleton, Nat.add_sub_cancel' hle]
    · intro row hrow
      rw [hrows] at hrow
      rcases List.mem_append.1 hrow with hmem | hmem
      · exact hs.right row hmem
      · obtain ⟨i, hi, rfl⟩ := List.mem_mapIdx.1 hmem
        exact branchRow_right hkernel (hmeasures _ (List.getElem_mem hi)) i
  · intro x hx
    obtain ⟨tid, -, rfl⟩ := List.mem_map.1 hx
    exact h.branchTp_safe hkernel ..

end BranchSweep

/-- The numbers of the cases that are asked for: all of them, or one. -/
def Configuration.casesMeasured (config : Configuration) : List Nat :=
  if config.branchCase = 0 then List.range' 1 branchCaseCount else [config.branchCase.toNat]

/-- The seconds that are left for a case. -/
def Configuration.caseDuration (config : Configuration) : Float :=
  config.targetDurationS.toFloat / (UInt32.ofNat config.casesMeasured.length).toFloat

/-- The number leads the others: it is one of them, and none of them is larger. -/
def Leads (x : Float) (xs : List Float) : Prop := x ∈ xs ∧ ∀ y ∈ xs, ¬ x < y

/-- What a sweep that is done has printed. -/
structure BranchSweep.Reports (config : Configuration) (s : BranchSweep (List Nat))
    (lines : List BestObserved) : Prop where
  order : s.rows.map (fun row => (row.caseNumber, row.thread)) =
    config.casesMeasured.flatMap fun c => (List.range config.numThreads.toNat).map fun t => (c, t)
  right : ∀ row ∈ s.rows, row.Right config.caseDuration
  warnings : s.warnings = ((s.rows.find? fun row => row.perCycle.isNone).map fun row =>
    row.measured.counterError).toList
  threads : lines.map (·.thread) = List.range config.numThreads.toNat
  rate : ∀ line ∈ lines, line.rate = 0 ∧ (∀ x ∈ ratesOf line.thread s.rows, ¬ 0 < x) ∨
    0 < line.rate ∧ Leads line.rate (ratesOf line.thread s.rows)
  perCycle : ∀ line ∈ lines, ∀ x, line.perCycle = some x →
    0 < x ∧ Leads x (perCyclesOf line.thread s.rows)
  noCycles : ∀ line ∈ lines, line.perCycle = none →
    ∀ x ∈ perCyclesOf line.thread s.rows, ¬ 0 < x

theorem casesMeasured_eq (config : Configuration) : config.casesMeasured =
    (List.range' config.branchRange.1 (config.branchRange.2 - config.branchRange.1)).map (· + 1) := by
  rw [Configuration.casesMeasured, Configuration.branchRange]
  by_cases hall : config.branchCase = 0
  · rw [if_pos hall, if_neg (not_not.2 hall)]
    rfl
  · have hne : config.branchCase.toNat ≠ 0 := fun h => hall (UInt32.toNat_inj.1 h)
    rw [if_neg hall, if_pos hall]
    dsimp only
    rw [show config.branchCase.toNat - (config.branchCase.toNat - 1) = 1 by omega, List.range'_one,
      List.map_singleton, Nat.sub_add_cancel (Nat.one_le_iff_ne_zero.2 hne)]

theorem caseDuration_eq (config : Configuration) : config.caseDuration =
    config.targetDurationS.toFloat /
      (UInt32.ofNat (config.branchRange.2 - config.branchRange.1)).toFloat := by
  rw [Configuration.caseDuration, casesMeasured_eq, List.length_map, List.length_range']

theorem best_leads (xs : List Float) :
    best xs = 0 ∧ (∀ x ∈ xs, ¬ 0 < x) ∨ 0 < best xs ∧ Leads (best xs) xs := by
  rcases best_mem xs with hzero | ⟨hpos, hmem⟩
  · exact .inl ⟨hzero, fun x hx => hzero ▸ best_not_lt hx⟩
  · exact .inr ⟨hpos, hmem, fun x hx => best_not_lt hx⟩

namespace BranchSweep

variable {s : BranchSweep (List Nat)} {config : Configuration}

theorem Rows.reports {lines : List BestObserved}
    (hs : s.Rows config.numThreads.toNat config.caseDuration config.branchRange.1
      config.branchRange.2)
    (hlines : Run.loop s.bestObserved config.numThreads.toNat 0 [] = .done lines) :
    s.Reports config lines := by
  rw [hs.tallied.bestObserved] at hlines
  cases hlines
  refine ⟨?_, hs.right, hs.tallied.warnings, ?_, ?_, ?_, ?_⟩
  · rw [hs.order, casesMeasured_eq, List.flatMap_map]
  · rw [List.map_map]
    exact List.map_id _
  · intro line hline
    obtain ⟨t, -, rfl⟩ := List.mem_map.1 hline
    exact best_leads _
  · intro line hline x hx
    obtain ⟨t, -, rfl⟩ := List.mem_map.1 hline
    dsimp only at hx
    split at hx
    · next hbest =>
      cases hx
      rcases best_leads (perCyclesOf t s.rows) with ⟨hzero, -⟩ | hleads
      · rw [hzero] at hbest
        exact absurd hbest (float_lt_irrefl 0)
      · exact hleads
    · cases hx
  · intro line hline hnone
    obtain ⟨t, -, rfl⟩ := List.mem_map.1 hline
    dsimp only at hnone
    split at hnone
    · cases hnone
    · next hbest =>
      rcases best_leads (perCyclesOf t s.rows) with ⟨-, hall⟩ | ⟨hpos, -⟩
      · exact hall
      · exact absurd hpos hbest

end BranchSweep

/-- What the options of `cpu_branch_throughput` have to be. -/
structure Configuration.SweepAccepted (config : Configuration) : Prop where
  threads : config.numThreads ≠ 0
  duration : config.targetDurationS ≠ 0
  branchCase : config.branchCase.toNat ≤ branchCaseCount

theorem Configuration.SweepAccepted.range {config : Configuration} (h : config.SweepAccepted) :
    config.branchRange.1 < config.branchRange.2 ∧ config.branchRange.2 ≤ branchCaseCount := by
  rw [Configuration.branchRange]
  split
  · next hone =>
    have hne : config.branchCase.toNat ≠ 0 := fun h0 => hone (UInt32.toNat_inj.1 h0)
    exact ⟨Nat.sub_lt (Nat.pos_of_ne_zero hne) Nat.one_pos, h.branchCase⟩
  · exact ⟨by decide, Nat.le_refl _⟩

theorem Configuration.SweepAccepted.sweep {config : Configuration} (h : config.SweepAccepted)
    (host : BranchHost σ) : cpuBranchThroughput host config =
      Run.loop (BranchSweep.measureCase host config.numThreads.toNat config.caseDuration)
        (config.branchRange.2 - config.branchRange.1) config.branchRange.1
        (.start config.numThreads.toNat) >>= fun s =>
          Run.loop s.bestObserved config.numThreads.toNat 0 [] >>= fun lines =>
            .done (some (s, lines)) := by
  rw [cpuBranchThroughput, if_neg, caseDuration_eq]
  · rfl
  · rintro (hthreads | hduration | hcase)
    · exact h.threads hthreads
    · exact h.duration hduration
    · exact absurd h.branchCase (Nat.not_le.2 hcase)

theorem BranchHost.Executes.sweep_safe (hhost : host.Executes) {config : Configuration}
    (h : config.SweepAccepted) :
    Run.Safe (fun out => ∃ s lines, out = some (s, lines) ∧ s.Reports config lines)
      (cpuBranchThroughput host config) := by
  obtain ⟨hpos, hlast⟩ := h.range
  have hstart : (BranchSweep.start config.numThreads.toNat).Rows config.numThreads.toNat
      config.caseDuration config.branchRange.1 config.branchRange.1 :=
    ⟨.start _, by rw [Nat.sub_self]; rfl, nofun⟩
  have hloop := Run.Safe.loop (n := config.branchRange.2 - config.branchRange.1)
    (f := BranchSweep.measureCase host config.numThreads.toNat config.caseDuration)
    hstart fun k s hle hlt hs => hs.measureCase hhost (by omega) hle
  rw [Nat.add_sub_cancel' (Nat.le_of_lt hpos)] at hloop
  rw [h.sweep]
  apply hloop.bind
  intro s hs
  rw [hs.tallied.bestObserved, Run.done_bind]
  exact .done ⟨s, _, rfl, hs.reports hs.tallied.bestObserved⟩

theorem branchLoop_more {getElapsedTime : Int → Float} {run : Nat → σ → Run Fault σ}
    (h : branchLoop getElapsedTime run clock batchBranches sampleDuration fuel s = .done s')
    (hle : fuel ≤ more) :
    branchLoop getElapsedTime run clock batchBranches sampleDuration more s = .done s' := by
  induction fuel generalizing s more with
  | zero => cases h
  | succ fuel ih =>
    obtain ⟨more, rfl⟩ : ∃ k, more = k + 1 := ⟨more - 1, by omega⟩
    obtain ⟨cursor, hcursor, h⟩ := Run.bind_eq_done.1 h
    rw [branchLoop, hcursor, Run.done_bind]
    dsimp only at h ⊢
    split
    · next hreached =>
      rw [if_pos hreached] at h
      exact h
    · next hshort =>
      rw [if_neg hshort] at h
      exact ih h (Nat.le_of_succ_le_succ hle)

theorem BranchHost.Executes.branchTp_ends (hhost : host.Executes) {clock : Nat → Int}
    {duration : Float} (hn : 1 < n) (hreached : duration ≤ elapsedSeconds (clock n - clock 1))
    (index : Nat) (counter : CycleCounter Float) : ∀ᶠ fuel in Filter.atTop,
      branchTp elapsedSeconds counter host.run clock fuel ⟨index, duration⟩ host.fresh ≠
        .running := by
  cases hkernel : branchCases[index]? with
  | none =>
    refine .of_forall fun fuel => ?_
    rw [branchTp, vectorAt, hkernel]
    exact Run.fault_ne_running
  | some kernel =>
    have hrun := hhost.run kernel (List.mem_of_getElem? hkernel)
    let started : BranchState (List Nat) := ⟨1, 0, .startTimer (clock 1),
      host.fresh ++ [takenBranches kernel.branches batchRounds]⟩
    obtain ⟨fuel, s', hloop⟩ : ∃ fuel s', branchLoop elapsedSeconds (host.run kernel) clock
        (takenBranches kernel.branches batchRounds) duration fuel started = .done s' :=
      branchLoop_ends (fun c => ⟨_, hrun c⟩) (Int.sub_self (clock 1)).symm hreached hn
    refine Filter.eventually_atTop.2 ⟨fuel, fun more hmore => ?_⟩
    rw [branchTp, vectorAt, hkernel]
    dsimp only
    rw [Run.done_bind, hrun, Run.done_bind, branchLoop_more hloop hmore]
    exact Run.done_ne_running

theorem BranchSweep.report_ne_running (index : Nat) (kernel : BranchCase)
    (packets : List (BranchResult Float σ)) (tid : Nat) (s : BranchSweep σ) :
    s.report index kernel packets tid ≠ .running := by
  apply Run.bind_ne_running vectorAt_ne_running
  intro pkt _
  apply Run.bind_ne_running vectorAt_ne_running
  intro rate _
  apply Run.bind_ne_running vectorSet_ne_running
  intro peakRate _
  split
  · apply Run.bind_ne_running vectorAt_ne_running
    intro best _
    exact Run.bind_ne_running vectorSet_ne_running fun _ _ => Run.done_ne_running
  · dsimp only
    split
    · exact Run.done_ne_running
    · exact Run.done_ne_running

theorem BranchSweep.bestObserved_ne_running (s : BranchSweep σ) (tid : Nat)
    (lines : List BestObserved) : s.bestObserved tid lines ≠ .running := by
  apply Run.bind_ne_running vectorAt_ne_running
  intro rate _
  exact Run.bind_ne_running vectorAt_ne_running fun _ _ => Run.done_ne_running

/-- A case ends where each of its workers does; past the last case there is no worker. -/
theorem BranchSweep.measureCase_ne_running {duration : Float} (h : ∀ index < branchCaseCount,
      ∀ tid < numThreads, branchTp elapsedSeconds (host.counter index tid) host.run
        (host.clock index tid) host.fuel ⟨index, duration⟩ host.fresh ≠ .running)
    (index : Nat) (s : BranchSweep (List Nat)) :
    BranchSweep.measureCase host numThreads duration index s ≠ .running := by
  apply Run.bind_ne_running vectorAt_ne_running
  intro kernel hkernel
  have hindex : index < branchCaseCount := by
    rw [vectorAt] at hkernel
    split at hkernel
    · next hget => exact (List.getElem?_eq_some_iff.1 hget).1
    · cases hkernel
  apply Run.bind_ne_running
  · apply Run.all_ne_running
    intro x hx
    obtain ⟨tid, htid, rfl⟩ := List.mem_map.1 hx
    exact h index hindex tid (List.mem_range.1 htid)
  · intro packets _
    exact Run.loop_ne_running (BranchSweep.report_ne_running index kernel packets) _ _ s

/-- Some reading of each worker's clock, after its warm-up, comes to the duration of a case. -/
def Configuration.Reached (config : Configuration) (clock : Nat → Nat → Nat → Int) : Prop :=
  ∀ index < branchCaseCount, ∀ tid < config.numThreads.toNat, ∃ n > 1,
    config.caseDuration ≤ elapsedSeconds (clock index tid n - clock index tid 1)

theorem BranchHost.Executes.sweep_ends (hhost : host.Executes) {config : Configuration}
    (h : config.SweepAccepted) (hclock : config.Reached host.clock) :
    ∃ enough, ∀ fuel ≥ enough, cpuBranchThroughput { host with fuel } config ≠ .running := by
  have hends : ∀ᶠ fuel in Filter.atTop, ∀ index ∈ Finset.range branchCaseCount,
      ∀ tid ∈ Finset.range config.numThreads.toNat,
        branchTp elapsedSeconds (host.counter index tid) host.run (host.clock index tid) fuel
          ⟨index, config.caseDuration⟩ host.fresh ≠ .running := by
    rw [Filter.eventually_all_finset]
    intro index hindex
    rw [Filter.eventually_all_finset]
    intro tid htid
    obtain ⟨n, hn, hreached⟩ := hclock index (Finset.mem_range.1 hindex) tid (Finset.mem_range.1 htid)
    exact hhost.branchTp_ends hn hreached index _
  obtain ⟨enough, henough⟩ := Filter.eventually_atTop.1 hends
  refine ⟨enough, fun fuel hfuel => ?_⟩
  rw [h.sweep]
  apply Run.bind_ne_running
  · apply Run.loop_ne_running
    apply BranchSweep.measureCase_ne_running
    intro index hindex tid htid
    exact henough fuel hfuel index (Finset.mem_range.2 hindex) tid (Finset.mem_range.2 htid)
  · intro s _
    apply Run.bind_ne_running (Run.loop_ne_running s.bestObserved_ne_running _ _ _)
    exact fun _ _ => Run.done_ne_running

/-- Every sweep over chains of this code reports what it should, as soon as each batch may execute
enough instructions to end, and returns if the clocks of its workers get that far. -/
def SweepsBranches (c : Bool → BranchCode ι σ) (enter : UInt64 → σ) (pads : BranchCase → List Nat)
    (config : Configuration) : Prop :=
  ∃ steps, ∀ more ≥ steps,
    ∀ (counter : Nat → Nat → CycleCounter Float) (clock : Nat → Nat → Nat → Int),
      let host fuel : BranchHost (List Nat) :=
        { run := BranchCase.run c enter pads more, fresh := [], counter, clock, fuel }
      (∀ fuel, Run.Safe (fun out => ∃ s lines, out = some (s, lines) ∧ s.Reports config lines)
        (cpuBranchThroughput (host fuel) config)) ∧
      (config.Reached clock → ∃ enough, ∀ fuel ≥ enough, ∃ s lines,
        cpuBranchThroughput (host fuel) config = .done (some (s, lines)))

theorem BranchCode.Counts.sweeps {c : Bool → BranchCode ι σ} {rounds : σ → UInt64}
    {Ready : Bool → σ → Prop} (h : ∀ conditional, (c conditional).Counts rounds (Ready conditional))
    {enter : UInt64 → σ} (henter : ∀ r, rounds (enter r) = r) {pads : BranchCase → List Nat}
    (hpads : ∀ kernel ∈ branchCases, (pads kernel).length = kernel.branches)
    {config : Configuration} (hconfig : config.SweepAccepted) :
    SweepsBranches c enter pads config := by
  have hruns : ∀ᶠ more in Filter.atTop, ∀ kernel ∈ branchCases.toFinset, ∀ batches,
      kernel.run c enter pads more batchRounds batches =
        .done (batches ++ [takenBranches kernel.branches batchRounds]) := by
    rw [Filter.eventually_all_finset]
    intro kernel hkernel
    have hmem := List.mem_toFinset.1 hkernel
    exact Filter.eventually_atTop.2 (BranchCase.run_eq h henter hmem (hpads kernel hmem))
  obtain ⟨steps, hsteps⟩ := Filter.eventually_atTop.1 hruns
  refine ⟨steps, fun more hmore counter clock => ?_⟩
  have hhost : ∀ fuel, ({ run := BranchCase.run c enter pads more, fresh := [], counter, clock, fuel } :
      BranchHost (List Nat)).Executes := fun fuel =>
    ⟨fun kernel hkernel => hsteps more hmore kernel (List.mem_toFinset.2 hkernel), rfl⟩
  refine ⟨fun fuel => (hhost fuel).sweep_safe hconfig, fun hclock => ?_⟩
  obtain ⟨enough, henough⟩ := (hhost 0).sweep_ends hconfig hclock
  refine ⟨enough, fun fuel hfuel => ?_⟩
  obtain ⟨_, hdone, s, lines, rfl, -⟩ :=
    ((hhost fuel).sweep_safe hconfig).exists_done (henough fuel hfuel)
  exact ⟨s, lines, hdone⟩

end MmMem

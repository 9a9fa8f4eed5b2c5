import MmMem.CommandLine
import MmMem.MeasureLoop
import MmMem.MemRegion

namespace MmMem
open Prog
set_option autoImplicit true

structure BranchCase where
  type : Text
  branches : Nat
  spacing : Nat
  deriving Repr, DecidableEq

def branchCase (branches alignment : Nat) (conditional : Bool) : BranchCase where
  type := if conditional then "conditional".toList else "unconditional".toList
  branches
  spacing := 1 <<< alignment

def branchCases : List BranchCase :=
  [branchCase 8 4 false, branchCase 32 4 false, branchCase 128 4 false,
   branchCase 8 6 false, branchCase 32 6 false, branchCase 128 6 false,
   branchCase 8 4 true, branchCase 32 4 true, branchCase 128 4 true,
   branchCase 8 6 true, branchCase 32 6 true, branchCase 128 6 true]

def takenBranches (branches rounds : Nat) : Nat :=
  if rounds = 0 then 0 else u64Sub (u64 (rounds * u32 (branches + 1))) 1

/-- What the kernel makes of the cycle counter of a worker; `D` has the values of doubles. -/
structure CycleCounter (D : Type) where
  openError : Option Text
  startError : Option Text
  stopped : Except Text D

namespace CycleCounter

variable {D : Type}

def start (c : CycleCounter D) : Bool := c.openError.isNone && c.startError.isNone

def stop [Zero D] (c : CycleCounter D) : D :=
  match c.stopped with
  | .ok cycles => cycles
  | .error _ => 0

def error (c : CycleCounter D) : Text :=
  match c.openError, c.startError, c.stopped with
  | some e, _, _ => e
  | none, some e, _ => e
  | none, none, .error e => e
  | none, none, .ok _ => []

end CycleCounter

structure BrPredThreadPacket (D : Type) where
  caseIndex : Nat
  sampleDuration : D

/-- The variables of `branch_tp`, and the state the kernel works on. -/
structure BranchState (σ : Type) where
  calls : Nat
  finishedBranches : Nat
  timer : Timer
  cursor : σ
  deriving Repr, DecidableEq

def BranchState.resumeTimer (s : BranchState σ) : BranchState σ :=
  { s with timer := s.timer.resumeTimer }

/-- The outputs of `branch_tp`, with the state it ends in. -/
structure BranchResult (D σ : Type) where
  execTime : D
  cycles : D
  counterError : Text
  state : BranchState σ
  deriving Repr, DecidableEq

def batchRounds : Nat := 65536

variable {D : Type} [LE D] [DecidableLE D]

/-- The measured batches, for at most that many. `clock n` is the reading after `n` calls of the
kernel, and `getElapsedTime` rounds nanoseconds to seconds. -/
def branchLoop (getElapsedTime : Int → D) (run : Nat → σ → Run Fault σ) (clock : Nat → Int)
    (batchBranches : Nat) (sampleDuration : D) : Nat → BranchState σ → Run Fault (BranchState σ)
  | 0, _ => .running
  | fuel + 1, s => do
    let cursor ← run batchRounds s.cursor
    let s := { s with
      cursor
      calls := s.calls + 1
      finishedBranches := u64 (s.finishedBranches + batchBranches)
      timer := s.timer.endTimer (clock (s.calls + 1)) }
    if getElapsedTime s.timer.elapsedTimeNs ≥ sampleDuration then return s
    else branchLoop getElapsedTime run clock batchBranches sampleDuration fuel s.resumeTimer

def branchTp [Zero D] (getElapsedTime : Int → D) (counter : CycleCounter D)
    (run : BranchCase → Nat → σ → Run Fault σ) (clock : Nat → Int) (fuel : Nat)
    (pkt : BrPredThreadPacket D) (cursor : σ) : Run Fault (BranchResult D σ) := do
  let kernel ← vectorAt branchCases pkt.caseIndex
  let batchBranches := takenBranches kernel.branches batchRounds
  -- the warm-up batch
  let cursor ← run kernel batchRounds cursor
  let s ← branchLoop getElapsedTime (run kernel) clock batchBranches pkt.sampleDuration fuel
    { calls := 1, finishedBranches := 0, timer := .startTimer (clock 1), cursor }
  return {
    execTime := getElapsedTime s.timer.elapsedTimeNs
    cycles := if counter.start then counter.stop else 0
    counterError := counter.error
    state := s }

end MmMem

import MmMem.Library.BoundedRun
import MmMem.Library.MachineInt
import MmMem.Library.PointerChain
import Mathlib.Data.List.GetD
import Mathlib.Data.List.Perm.Basic

namespace MmMem
open Prog
set_option autoImplicit true

/-- What the abstract machine does not allow the region code to do. -/
inductive Fault where
  | divideByZero
  | indexOutOfBounds (index : Nat)
  | outsideRegion (offset : Nat)
  | strayPointer (offset : Nat)
  deriving Repr, DecidableEq

def divide (a b : Nat) : Run Fault Nat :=
  if b = 0 then .fault .divideByZero else .done (a / b)

def remainder (a b : Nat) : Run Fault Nat :=
  if b = 0 then .fault .divideByZero else .done (a % b)

def vectorAt (v : List α) (i : Nat) : Run Fault α :=
  match v[i]? with
  | some x => .done x
  | none => .fault (.indexOutOfBounds i)

def vectorSet (v : List α) (i : Nat) (x : α) : Run Fault (List α) :=
  if i < v.length then .done (v.set i x) else .fault (.indexOutOfBounds i)

theorem vectorAt_eq {v : List α} (h : i < v.length) : vectorAt v i = .done v[i] := by
  simp only [vectorAt, List.getElem?_eq_getElem h]

theorem vectorAt_getD {v : List Nat} (h : i < v.length) : vectorAt v i = .done (v.getD i 0) := by
  rw [vectorAt_eq h, List.getD_eq_getElem v 0 h]

theorem vectorSet_eq {v : List α} (x : α) (h : i < v.length) :
    vectorSet v i x = .done (v.set i x) := if_pos h

theorem remainder_eq (h : b ≠ 0) : remainder a b = .done (a % b) := if_neg h

theorem divide_eq (h : b ≠ 0) : divide a b = .done (a / b) := if_neg h

/-- The integers of a `MemRegion`; its bytes are a `Memory`. -/
structure MemRegion where
  size : Nat
  activeSize : Nat
  pageSize : Nat
  lineSize : Nat
  memType : Int
  hugepageType : Int
  numAllPages : Nat
  numActivePages : Nat
  numLinesInPage : Nat
  deriving Repr, DecidableEq

/-- The constructor, once the allocation has succeeded. -/
def MemRegion.new (size activeSize pageSize lineSize : Nat) (memType hugepageType : Int) :
    Run Fault MemRegion := do
  -- the member initializers divide by the page size before it is corrected
  let _ ← divide size pageSize
  let _ ← divide activeSize pageSize
  let _ ← divide pageSize lineSize
  let pageSize := if pageSize > activeSize then 4096 else pageSize
  let numAllPages ← divide size pageSize
  let numActivePages ← divide activeSize pageSize
  let numLinesInPage ← divide pageSize lineSize
  return { size, activeSize, pageSize, lineSize, memType, hugepageType,
           numAllPages, numActivePages, numLinesInPage }

def MemRegion.numAllLines (r : MemRegion) : Nat := u64 (r.numAllPages * r.numLinesInPage)

def MemRegion.numActiveLines (r : MemRegion) : Nat := u64 (r.numActivePages * r.numLinesInPage)

def MemRegion.storePointer (r : MemRegion) (m : Memory) (offset target : Nat) :
    Run Fault Memory :=
  if offset + 8 ≤ r.size then .done (m.store offset target) else .fault (.outsideRegion offset)

def MemRegion.loadPointer (r : MemRegion) (m : Memory) (offset : Nat) : Run Fault Nat :=
  if offset + 8 ≤ r.size then
    match m.slot offset with
    | some target => .done target
    | none => .fault (.strayPointer offset)
  else .fault (.outsideRegion offset)

/-- The sequence, the mixing word and the number of `rand()` calls made so far. -/
structure Shuffle where
  sequence : List Nat
  r : Nat
  calls : Nat

def swapStep (rand : Nat → Nat) (i : Nat) (s : Shuffle) : Run Fault Shuffle := do
  let r := u64 (s.r <<< 1) ^^^ rand s.calls
  let k ← remainder r (u64 (i + 1))
  let tmp ← vectorAt s.sequence k
  let x ← vectorAt s.sequence i
  let sequence ← vectorSet s.sequence k x
  let sequence ← vectorSet sequence i tmp
  return { sequence, r, calls := s.calls + 1 }

/-- The last loop of `randomizeSequence_`: its counter is 32 bits wide, its bound 64. -/
def startAtZero (size : Nat) : Nat → Nat → List Nat → Run Fault (List Nat)
  | 0, _, _ => .running
  | fuel + 1, i, sequence =>
    if i < size then do
      let x ← vectorAt sequence i
      if x = 0 then
        let first ← vectorAt sequence 0
        let sequence ← vectorSet sequence i first
        vectorSet sequence 0 0
      else startAtZero size fuel (u32 (i + 1)) sequence
    else .done sequence

def randomizeSequence (rand : Nat → Nat) (fuel : Nat) (sequence : List Nat) (size unit : Nat)
    (inOrder : Bool) : Run Fault (List Nat) := do
  let sequence ← Run.loop (fun i s => vectorSet s i (u64 (i * unit))) size 0 sequence
  if inOrder then
    return sequence
  let r := rand 0 ^^^ u64 (rand 1 <<< 10)
  let s ← Run.loopDown (swapStep rand) (u64Sub size 1) { sequence, r, calls := 2 }
  startAtZero size fuel 1 s.sequence

def MemRegion.strideLoop (r : MemRegion) : Nat → Nat → Memory → Run Fault (Nat × Memory)
  | 0, _, _ => .running
  | fuel + 1, i, m =>
    if i < r.activeSize then do
      let m ← r.storePointer m (u64Sub i r.lineSize) i
      r.strideLoop fuel (u64 (i + r.lineSize)) m
    else .done (i, m)

def MemRegion.strideInit (r : MemRegion) (fuel : Nat) (m : Memory) : Run Fault Memory := do
  let (i, m) ← r.strideLoop fuel r.lineSize m
  r.storePointer m (u64Sub i r.lineSize) 0

def MemRegion.linkPage (r : MemRegion) (pages linesInPage : List Nat) (i : Nat) (m : Memory) :
    Run Fault Memory := do
  let m ← Run.loop (fun j m => do
    let page ← vectorAt pages i
    let line ← vectorAt linesInPage j
    let nextLine ← vectorAt linesInPage (u64 (j + 1))
    r.storePointer m (u64 (page + line)) (u64 (page + nextLine)))
    (u64Sub r.numLinesInPage 1) 0 m
  let nextPage := if i = u64Sub r.numActivePages 1 then 0 else u64 (i + 1)
  let page ← vectorAt pages i
  let line ← vectorAt linesInPage (u64Sub r.numLinesInPage 1)
  let page' ← vectorAt pages nextPage
  let line' ← vectorAt linesInPage 0
  r.storePointer m (u64 (page + line)) (u64 (page' + line'))

def MemRegion.pageRandomInit (r : MemRegion) (rand : Nat → Nat) (fuel : Nat) (m : Memory) :
    Run Fault Memory := do
  let pages ← randomizeSequence rand fuel (List.replicate r.numActivePages 0)
    r.numActivePages r.pageSize true
  let linesInPage ← randomizeSequence rand fuel (List.replicate r.numLinesInPage 0)
    r.numLinesInPage r.lineSize false
  Run.loop (r.linkPage pages linesInPage) r.numActivePages 0 m

def MemRegion.allRandomInit (r : MemRegion) (rand : Nat → Nat) (fuel : Nat) (m : Memory) :
    Run Fault Memory := do
  let numLines := r.numActiveLines
  let lines ← randomizeSequence rand fuel (List.replicate numLines 0) numLines r.lineSize false
  let m ← Run.loop (fun i m => do
    let line ← vectorAt lines i
    let nextLine ← vectorAt lines (u64 (i + 1))
    r.storePointer m line nextLine) (u64Sub numLines 1) 0 m
  let line ← vectorAt lines (u64Sub numLines 1)
  let line' ← vectorAt lines 0
  r.storePointer m line line'

end MmMem

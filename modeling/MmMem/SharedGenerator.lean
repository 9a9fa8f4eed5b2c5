import MmMem.LatencyDrivers
import MmMem.Library.SharedObject

namespace MmMem
open Prog
set_option autoImplicit true

/-- The calls that reach the generator all threads of the process share. -/
inductive GeneratorCall where
  | srand (seed : Nat)
  | rand
  deriving Repr, DecidableEq

def GeneratorCall.Answer : GeneratorCall → Type
  | .srand _ => Unit
  | .rand => Nat

/-- The last seed, and how often `rand()` has been called since. -/
structure Generator where
  seed : Nat
  drawn : Nat
  deriving Repr, DecidableEq

/-- The generator that returns `values seed n` as its `n`-th value after `srand(seed)`. -/
def generator (values : Nat → Nat → Nat) :
    SharedObject GeneratorCall GeneratorCall.Answer Generator
  | .srand seed, _ => ((), ⟨seed, 0⟩)
  | .rand, g => (values g.seed g.drawn, { g with drawn := g.drawn + 1 })

/-- Code of a thread: only its calls of `srand()` and `rand()` reach the others. -/
abbrev Calling (α : Type) : Type := Caller GeneratorCall GeneratorCall.Answer Fault α

namespace Calling

def srand (seed : Nat) : Calling Unit := Caller.ask (GeneratorCall.srand seed)

def rand : Calling Nat := Caller.ask GeneratorCall.rand

/-- The constructor, once the allocation has succeeded. -/
def newMemRegion (size activeSize pageSize lineSize : Nat) (memType hugepageType : Int) :
    Calling MemRegion := do
  let r ← MemRegion.new size activeSize pageSize lineSize memType hugepageType
  srand 0
  return r

/-- One trip of the swapping loop, on the sequence and the mixing word. -/
def swapStep (i : Nat) (s : List Nat × Nat) : Calling (List Nat × Nat) := do
  let drawn ← rand
  let r := u64 (s.2 <<< 1) ^^^ drawn
  let k ← remainder r (u64 (i + 1))
  let tmp ← vectorAt s.1 k
  let x ← vectorAt s.1 i
  let sequence ← vectorSet s.1 k x
  let sequence ← vectorSet sequence i tmp
  return (sequence, r)

def randomizeSequence (fuel : Nat) (sequence : List Nat) (size unit : Nat) (inOrder : Bool) :
    Calling (List Nat) := do
  let sequence ← Run.loop (fun i s => vectorSet s i (u64 (i * unit))) size 0 sequence
  if inOrder then
    return sequence
  else do
    let first ← rand
    let second ← rand
    let s ← Caller.loopDown swapStep (u64Sub size 1) (sequence, first ^^^ u64 (second <<< 10))
    startAtZero size fuel 1 s.1

def pageRandomInit (r : MemRegion) (fuel : Nat) (m : Memory) : Calling Memory := do
  let pages ← randomizeSequence fuel (List.replicate r.numActivePages 0) r.numActivePages
    r.pageSize true
  let linesInPage ← randomizeSequence fuel (List.replicate r.numLinesInPage 0) r.numLinesInPage
    r.lineSize false
  Run.loop (r.linkPage pages linesInPage) r.numActivePages 0 m

def allRandomInit (r : MemRegion) (fuel : Nat) (m : Memory) : Calling Memory := do
  let numLines := r.numActiveLines
  let lines ← randomizeSequence fuel (List.replicate numLines 0) numLines r.lineSize false
  let m ← Run.loop (fun i m => do
    let line ← vectorAt lines i
    let nextLine ← vectorAt lines (u64 (i + 1))
    r.storePointer m line nextLine) (u64Sub numLines 1) 0 m
  let line ← vectorAt lines (u64Sub numLines 1)
  let line' ← vectorAt lines 0
  r.storePointer m line line'

def initByPattern (r : MemRegion) (accessPattern : UInt32) (fuel : Nat) (m : Memory) :
    Calling Memory :=
  if accessPattern = 0 then liftM (r.strideInit fuel m)
  else if accessPattern = 1 then pageRandomInit r fuel m
  else if accessPattern = 2 then allRandomInit r fuel m
  else pageRandomInit r fuel m

/-- `mem_region_alloc_lat` -/
def memRegionAllocLat (fuel : Nat) (pkt : MemLatBwThreadPacket) :
    Calling (MemRegion × Memory) := do
  let size := (pkt.regionSizeKb * 1024).toNat
  let r ← newMemRegion size size (pkt.chunkSizeKb * 1024).toNat pkt.strideSizeB.toNat
    pkt.memType.toInt pkt.useHugepage.toInt32.toInt
  let m ← initByPattern r pkt.accessPattern fuel .zeroed
  return (r, m)

/-- `mem_region_alloc_bw`: the region is constructed and stays zeroed. -/
def memRegionAllocBw (pkt : MemLatBwThreadPacket) : Calling (MemRegion × Memory) := do
  let size := (pkt.regionSizeKb * 1024).toNat
  let r ← newMemRegion size size 4096 64 pkt.memType.toInt 0
  return (r, .zeroed)

end Calling

variable {values : Nat → Nat → Nat} {seed : Nat}

theorem rand_alone (g : Generator) : Calling.rand.alone (generator values) g =
    .done (values g.seed g.drawn, { g with drawn := g.drawn + 1 }) := rfl

theorem swapStep_alone (i : Nat) (s : Shuffle) :
    (Calling.swapStep i (s.sequence, s.r)).alone (generator values) ⟨seed, s.calls⟩ =
      MmMem.swapStep (values seed) i s >>= fun t =>
        .done ((t.sequence, t.r), ⟨seed, t.calls⟩) := by
  rw [Calling.swapStep, Caller.alone_bind, rand_alone, Run.done_bind]
  simp only [MmMem.swapStep, Caller.alone_bind, Caller.alone_lift, Caller.alone_pure,
    Run.bind_assoc, Run.done_bind, Run.pure_eq]

theorem randomizeSequence_inOrder_alone (rand : Nat → Nat) (fuel : Nat) (sequence : List Nat)
    (size unit : Nat) (g : Generator) :
    (Calling.randomizeSequence fuel sequence size unit true).alone (generator values) g =
      MmMem.randomizeSequence rand fuel sequence size unit true >>= fun s => .done (s, g) := by
  rw [Calling.randomizeSequence, Caller.alone_bind, Caller.alone_lift, MmMem.randomizeSequence,
    Run.bind_assoc, Run.bind_assoc]
  rfl

theorem randomizeSequence_outcome (fuel : Nat) (sequence : List Nat) (size unit : Nat) :
    (Calling.randomizeSequence fuel sequence size unit false).outcome (generator values) ⟨seed, 0⟩ =
      MmMem.randomizeSequence (values seed) fuel sequence size unit false := by
  have hloop := Caller.loopDown_alone
    (fun s : Shuffle => ((s.sequence, s.r), (⟨seed, s.calls⟩ : Generator)))
    (@swapStep_alone values seed)
  rw [Calling.randomizeSequence, Caller.outcome_bind, Caller.alone_lift, MmMem.randomizeSequence,
    Run.bind_assoc]
  apply Run.bind_congr rfl
  intro s
  have hs := hloop (u64Sub size 1) ⟨s, values seed 0 ^^^ u64 (values seed 1 <<< 10), 2⟩
  rw [Run.done_bind, if_neg Bool.false_ne_true, if_neg Bool.false_ne_true, Caller.outcome_bind,
    rand_alone, Run.done_bind, Caller.outcome_bind, rand_alone, Run.done_bind,
    Caller.outcome_bind_lift, Caller.outcome]
  rw [hs, Run.bind_assoc, Run.bind_assoc]
  exact Run.bind_congr rfl fun t => Run.done_bind ..

variable {r : MemRegion}

theorem pageRandomInit_outcome (fuel : Nat) (m : Memory) :
    (Calling.pageRandomInit r fuel m).outcome (generator values) ⟨seed, 0⟩ =
      r.pageRandomInit (values seed) fuel m := by
  rw [Calling.pageRandomInit, Caller.outcome_bind,
    randomizeSequence_inOrder_alone (values seed), MemRegion.pageRandomInit, Run.bind_assoc]
  apply Run.bind_congr rfl
  intro pages
  rw [Run.done_bind, Caller.outcome_bind_lift, randomizeSequence_outcome]

theorem allRandomInit_outcome (fuel : Nat) (m : Memory) :
    (Calling.allRandomInit r fuel m).outcome (generator values) ⟨seed, 0⟩ =
      r.allRandomInit (values seed) fuel m := by
  simp only [Calling.allRandomInit, Caller.lift_bind]
  rw [Caller.outcome_bind_lift, randomizeSequence_outcome]
  rfl

theorem initByPattern_outcome (accessPattern : UInt32) (fuel : Nat) (m : Memory) :
    (Calling.initByPattern r accessPattern fuel m).outcome (generator values) ⟨seed, 0⟩ =
      r.initByPattern accessPattern (values seed) fuel m := by
  rw [Calling.initByPattern, MemRegion.initByPattern]
  split
  · exact Caller.outcome_ret _ _
  split
  · exact pageRandomInit_outcome fuel m
  split
  · exact allRandomInit_outcome fuel m
  · exact pageRandomInit_outcome fuel m

/-- Every constructor starts the generator afresh, whatever was drawn before. -/
theorem newMemRegion_alone (size activeSize pageSize lineSize : Nat) (memType hugepageType : Int)
    (g : Generator) :
    (Calling.newMemRegion size activeSize pageSize lineSize memType hugepageType).alone
        (generator values) g =
      MemRegion.new size activeSize pageSize lineSize memType hugepageType >>= fun r =>
        .done (r, ⟨0, 0⟩) := by
  rw [Calling.newMemRegion, Caller.alone_bind, Caller.alone_lift, Run.bind_assoc]
  rfl

/-- A worker that has the generator to itself draws the values that follow `srand(0)`. -/
theorem memRegionAllocLat_outcome (fuel : Nat) (pkt : MemLatBwThreadPacket) (g : Generator) :
    (Calling.memRegionAllocLat fuel pkt).outcome (generator values) g =
      memRegionAllocLat (values 0) fuel pkt := by
  rw [Calling.memRegionAllocLat, Caller.outcome_bind, newMemRegion_alone, Run.bind_assoc,
    memRegionAllocLat]
  apply Run.bind_congr rfl
  intro r
  rw [Run.done_bind, ← initByPattern_outcome]
  exact Caller.outcome_bind_lift _ (fun m => .done (r, m)) _

end MmMem

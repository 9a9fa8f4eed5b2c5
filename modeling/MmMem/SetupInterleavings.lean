import MmMem.SharedGenerator

namespace MmMem
open Prog
set_option autoImplicit true

/-- The workers of a setup phase with the generator they share. -/
abbrev Setup (κ : Type) : Type :=
  Sharing κ GeneratorCall GeneratorCall.Answer Generator Fault (MemRegion × Memory)

/-- `setup_memory_regions_idle_latency` for a manager of `numThreads` workers. -/
def setupIdleLatency (fuel : Nat) (config : Configuration) (node : Int32) (numThreads : UInt32)
    (g : Generator) : Setup (Fin numThreads.toNat) :=
  .start g fun i =>
    Calling.memRegionAllocLat fuel (prepareMemLatBwThreadPacket config node numThreads (.ofNat i))

/-- `setup_memory_regions_loaded_latency`: the first worker chases, the others generate load. -/
def setupLoadedLatency (fuel : Nat) (config : Configuration) (g : Generator) :
    Setup (Fin config.numThreads.toNat) :=
  .start g fun i =>
    let pkt := prepareMemLatBwThreadPacket config (-1) config.numThreads (.ofNat i)
    if i.val = 0 then Calling.memRegionAllocLat fuel pkt else Calling.memRegionAllocBw pkt

variable {κ : Type} {s : Setup κ} {w : κ} {values : Nat → Nat → Nat}

/-- If the worker is about to draw, the generator is where its own calls would have put it. -/
def InStep (s : Setup κ) (w : κ) : Prop :=
  ∀ k, s.callers w = .call .rand k → s.object = s.own w

theorem InStep.answeredAlone (h : InStep s w) :
    s.AnsweredAlone (generator values) w := by
  intro o k hcall
  cases o with
  | srand seed => rfl
  | rand => rw [h k hcall]

variable [DecidableEq κ]

theorem InStep.step (h : InStep s w) :
    InStep (s.step (generator values) w) w := by
  intro k' hcall'
  rw [Sharing.step] at hcall' ⊢
  split at hcall'
  · next x hret => cases hret.symm.trans hcall'
  · next o k hcall =>
    simp only [Function.update_self]
    cases o with
    | srand seed => rfl
    | rand => rw [h k hcall]

/-- A worker whose calls come in one piece is not disturbed once it has seeded the generator. -/
theorem InStep.block (h : InStep s w) (n : Nat) :
    s.Along (generator values) InStep (List.replicate n w) := by
  induction n generalizing s with
  | zero => trivial
  | succ n ih => exact ⟨h, ih h.step⟩

/-- Workers that are set up one after the other, in whatever order, do not disturb each other. -/
theorem serial_inStep {order : List κ} (n : Nat)
    (hstart : ∀ w ∈ order, ∀ k, s.callers w ≠ .call .rand k) (hnodup : order.Nodup) :
    s.Along (generator values) InStep (order.flatMap (List.replicate n)) := by
  induction order generalizing s with
  | nil => trivial
  | cons w order ih =>
    obtain ⟨hw, hnodup⟩ := List.nodup_cons.1 hnodup
    rw [List.flatMap_cons, Sharing.along_append]
    constructor
    · exact InStep.block (fun k hcall => absurd hcall (hstart w List.mem_cons_self k)) n
    · apply ih _ hnodup
      intro v hv
      have hne : v ∉ List.replicate n w := fun hmem => hw (List.eq_of_mem_replicate hmem ▸ hv)
      rw [Sharing.run_callers_not_mem hne]
      exact hstart v (List.mem_cons_of_mem w hv)

theorem memRegionAllocLat_seedsFirst (fuel : Nat) (pkt : MemLatBwThreadPacket)
    (k : Nat → Calling (MemRegion × Memory)) :
    Calling.memRegionAllocLat fuel pkt ≠ .call .rand k := by
  rw [Calling.memRegionAllocLat, Calling.newMemRegion]
  intro h
  cases hnew : MemRegion.new (pkt.regionSizeKb * 1024).toNat (pkt.regionSizeKb * 1024).toNat
    (pkt.chunkSizeKb * 1024).toNat pkt.strideSizeB.toNat pkt.memType.toInt
    pkt.useHugepage.toInt32.toInt with
  | done r =>
    rw [hnew] at h
    cases h
  | fault e =>
    rw [hnew] at h
    cases h
  | running =>
    rw [hnew] at h
    cases h

/-- A worker always in step comes to what it would come to alone. -/
theorem inStep_outcome {callers : κ → Calling (MemRegion × Memory)} {g : Generator}
    {schedule : List κ}
    (h : (Sharing.start g callers).Along (generator values) (fun s v => v = w → InStep s v) schedule)
    (hret : ((Sharing.start g callers).run (generator values) schedule).callers w = .ret x) :
    x = (callers w).outcome (generator values) g := by
  apply Sharing.run_outcome (h.mono ?_) hret
  rintro s v hv rfl
  exact (hv rfl).answeredAlone

/-- What `rand()` of the GNU C library returns first after `srand(0)`. -/
def glibcRand (_ n : Nat) : Nat :=
  [1804289383, 846930886, 1681692777, 1714636915, 1957747793, 424238335].getD n 0

/-- What a worker has come to so far. -/
def built (c : Calling (MemRegion × Memory)) : Run Fault (MemRegion × Memory) :=
  match c with
  | .ret x => x
  | .call _ _ => .running

/-- The offset the pointer at the start of the region leads to. -/
def secondStop (x : Run Fault (MemRegion × Memory)) : Option Nat :=
  match x with
  | .done (_, m) => m.slot 0
  | _ => none

theorem ret_of_secondStop {c : Calling (MemRegion × Memory)} (h : secondStop (built c) = some o) :
    ∃ x, c = .ret x ∧ secondStop x = some o := by
  cases c with
  | ret x => exact ⟨x, rfl, h⟩
  | call o k => cases h

/-- In a setup whose steps all meet the condition, the chain of a latency worker is the one it would
build alone. -/
theorem fixed_seed_reproduces (values : Nat → Nat → Nat) (fuel : Nat) (config : Configuration)
    (node : Int32) (numThreads : UInt32) (g : Generator) :
    (∀ pkt, (Calling.memRegionAllocLat fuel pkt).outcome (generator values) g =
      memRegionAllocLat (values 0) fuel pkt) ∧
    (∀ worker schedule,
      (setupIdleLatency fuel config node numThreads g).Along (generator values)
        (fun s w => w = worker → InStep s w) schedule →
      ∀ x, ((setupIdleLatency fuel config node numThreads g).run (generator values)
          schedule).callers worker = .ret x →
        x = memRegionAllocLat (values 0) fuel
          (prepareMemLatBwThreadPacket config node numThreads (.ofNat worker))) ∧
    ∀ worker : Fin config.numThreads.toNat, worker.val = 0 → ∀ schedule,
      (setupLoadedLatency fuel config g).Along (generator values)
        (fun s w => w = worker → InStep s w) schedule →
      ∀ x, ((setupLoadedLatency fuel config g).run (generator values)
          schedule).callers worker = .ret x →
        x = memRegionAllocLat (values 0) fuel
          (prepareMemLatBwThreadPacket config (-1) config.numThreads (.ofNat worker)) := by
  refine ⟨fun pkt => memRegionAllocLat_outcome fuel pkt g, fun worker schedule h x hret => ?_,
    fun worker hfirst schedule h x hret => ?_⟩
  · exact (inStep_outcome h hret).trans (memRegionAllocLat_outcome fuel _ g)
  · have hx := inStep_outcome h hret
    rw [if_pos hfirst] at hx
    exact hx.trans (memRegionAllocLat_outcome fuel _ g)

/-- Two workers set up one after the other, four lines each. -/
theorem fixed_seed_reproduces_serial :
    let numa := NumaConfig.new ⟨0, 2, 2, fun _ => true, fun _ => 2 ^ 34, fun _ => some fun _ => true⟩
    let config := { Configuration.byDefault .latency numa with
      numThreads := 2, regionSizeKb := 4, chunkSizeKb := 4, strideSizeB := 1024 }
    let first : Fin (2 : UInt32).toNat := ⟨0, by decide⟩
    let second : Fin (2 : UInt32).toNat := ⟨1, by decide⟩
    let serial := [first, second].flatMap (List.replicate 6)
    ∃ x, ((setupIdleLatency 16 config (-1) 2 ⟨1, 0⟩).run (generator glibcRand)
        serial).callers second = .ret x ∧
      x = memRegionAllocLat (glibcRand 0) 16 (prepareMemLatBwThreadPacket config (-1) 2 1) := by
  intro numa config first second serial
  have hserial : (setupIdleLatency 16 config (-1) 2 ⟨1, 0⟩).Along (generator glibcRand) InStep
      serial :=
    serial_inStep 6 (fun _ _ k => memRegionAllocLat_seedsFirst 16 _ k) (by decide)
  obtain ⟨x, hx, -⟩ : ∃ x, ((setupIdleLatency 16 config (-1) 2 ⟨1, 0⟩).run
      (generator glibcRand) serial).callers second = .ret x ∧ secondStop x = some 1024 :=
    ret_of_secondStop (by decide +kernel)
  exact ⟨x, hx, (fixed_seed_reproduces glibcRand 16 config (-1) 2 ⟨1, 0⟩).2.1 second serial
    (hserial.mono fun _ _ h _ => h) x hx⟩

/-- The other worker constructs its region while the first one is shuffling its four lines. -/
theorem fixed_seed_disturbed :
    let numa := NumaConfig.new ⟨0, 2, 2, fun _ => true, fun _ => 2 ^ 34, fun _ => some fun _ => true⟩
    (∃ config, Configuration.parseOptions .latency numa ["cpu_idle_latency".toList, "-n2".toList,
        "-b4".toList, "-c4".toList, "-s1024".toList] = .done (.ok config) ∧
      ∃ worker : Fin config.numThreads.toNat, worker.val = 0 ∧ ∃ schedule x,
        ((setupIdleLatency 16 config (-1) config.numThreads ⟨1, 0⟩).run (generator glibcRand)
          schedule).callers worker = .ret x ∧ secondStop x = some 3072 ∧
        secondStop (memRegionAllocLat (glibcRand 0) 16
          (prepareMemLatBwThreadPacket config (-1) config.numThreads 0)) = some 1024) ∧
    ∃ config, Configuration.parseOptions .latencyBandwidth numa ["cpu_loaded_latency".toList,
        "-n2".toList, "-b4".toList, "-c4".toList, "-s1024".toList] = .done (.ok config) ∧
      ∃ worker : Fin config.numThreads.toNat, worker.val = 0 ∧ ∃ schedule x,
        ((setupLoadedLatency 16 config ⟨1, 0⟩).run (generator glibcRand) schedule).callers
          worker = .ret x ∧ secondStop x = some 3072 ∧
        secondStop (memRegionAllocLat (glibcRand 0) 16
          (prepareMemLatBwThreadPacket config (-1) config.numThreads 0)) = some 1024 := by
  intro numa
  constructor
  · let config := { Configuration.byDefault .latency numa with
      numThreads := 2, regionSizeKb := 4, chunkSizeKb := 4, strideSizeB := 1024 }
    let first : Fin config.numThreads.toNat := ⟨0, by decide +kernel⟩
    let second : Fin config.numThreads.toNat := ⟨1, by decide +kernel⟩
    let schedule := [first, first, first, second, first, first, first]
    obtain ⟨x, hx, hstop⟩ : ∃ x, ((setupIdleLatency 16 config (-1) config.numThreads ⟨1, 0⟩).run
        (generator glibcRand) schedule).callers first = .ret x ∧ secondStop x = some 3072 :=
      ret_of_secondStop (by decide +kernel)
    exact ⟨config, by decide +kernel, first, rfl, schedule, x, hx, hstop, by decide +kernel⟩
  · let config := { Configuration.byDefault .latencyBandwidth numa with
      numThreads := 2, regionSizeKb := 4, chunkSizeKb := 4, strideSizeB := 1024 }
    let first : Fin config.numThreads.toNat := ⟨0, by decide +kernel⟩
    let second : Fin config.numThreads.toNat := ⟨1, by decide +kernel⟩
    let schedule := [first, first, first, second, first, first, first]
    obtain ⟨x, hx, hstop⟩ : ∃ x, ((setupLoadedLatency 16 config ⟨1, 0⟩).run
        (generator glibcRand) schedule).callers first = .ret x ∧ secondStop x = some 3072 :=
      ret_of_secondStop (by decide +kernel)
    exact ⟨config, by decide +kernel, first, rfl, schedule, x, hx, hstop, by decide +kernel⟩

end MmMem

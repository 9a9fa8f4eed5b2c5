import MmMem.LatencyFaults
import MmMem.LatencyPass
import MmMem.SetupInterleavings

namespace MmMem
open Prog
set_option autoImplicit true

/-- The numbers a worker is handed, whoever else draws or seeds in between. -/
def tape : SharedObject GeneratorCall GeneratorCall.Answer (Nat → Nat)
  | .srand _, t => ((), t)
  | .rand, t => (t 0, fun n => t (n + 1))

def later (t : Nat → Nat) (n : Nat) : Nat → Nat := fun k => t (n + k)

theorem later_zero (t : Nat → Nat) : later t 0 = t := funext fun k => congrArg t (Nat.zero_add k)

theorem rand_tape (t : Nat → Nat) (n : Nat) :
    Calling.rand.alone tape (later t n) = .done (t n, later t (n + 1)) := by
  have hrest : (fun k => later t n (k + 1)) = later t (n + 1) :=
    funext fun k => congrArg t (by omega)
  rw [← hrest]
  rfl

theorem swapStep_tape (t : Nat → Nat) (i : Nat) (s : Shuffle) :
    (Calling.swapStep i (s.sequence, s.r)).alone tape (later t s.calls) =
      swapStep t i s >>= fun u => .done ((u.sequence, u.r), later t u.calls) := by
  rw [Calling.swapStep, Caller.alone_bind, rand_tape, Run.done_bind]
  simp only [swapStep, Caller.alone_bind, Caller.alone_lift, Caller.alone_pure, Run.bind_assoc,
    Run.done_bind, Run.pure_eq]

theorem randomizeSequence_tape (t : Nat → Nat) (fuel : Nat) (sequence : List Nat)
    (size unit : Nat) (inOrder : Bool) :
    (Calling.randomizeSequence fuel sequence size unit inOrder).outcome tape t =
      randomizeSequence t fuel sequence size unit inOrder := by
  rw [Calling.randomizeSequence, Caller.outcome_bind, Caller.alone_lift, randomizeSequence,
    Run.bind_assoc]
  apply Run.bind_congr rfl
  intro s
  rw [Run.done_bind]
  cases inOrder with
  | true => rfl
  | false =>
    have hs := Caller.loopDown_alone (fun s : Shuffle => ((s.sequence, s.r), later t s.calls))
      (swapStep_tape t) (u64Sub size 1) ⟨s, t 0 ^^^ u64 (t 1 <<< 10), 2⟩
    have hfirst := rand_tape t 0
    rw [later_zero] at hfirst
    rw [if_neg Bool.false_ne_true, if_neg Bool.false_ne_true, Caller.outcome_bind, hfirst,
      Run.done_bind, Caller.outcome_bind, rand_tape, Run.done_bind, Caller.outcome_bind_lift,
      Caller.outcome]
    rw [hs, Run.bind_assoc, Run.bind_assoc]
    exact Run.bind_congr rfl fun u => Run.done_bind ..

theorem randomizeSequence_inOrder_tape (t : Nat → Nat) (fuel : Nat) (sequence : List Nat)
    (size unit : Nat) :
    (Calling.randomizeSequence fuel sequence size unit true).alone tape t =
      randomizeSequence t fuel sequence size unit true >>= fun s => .done (s, t) := by
  rw [Calling.randomizeSequence, Caller.alone_bind, Caller.alone_lift, randomizeSequence,
    Run.bind_assoc, Run.bind_assoc]
  rfl

theorem initByPattern_tape (t : Nat → Nat) (r : MemRegion) (accessPattern : UInt32) (fuel : Nat)
    (m : Memory) : (Calling.initByPattern r accessPattern fuel m).outcome tape t =
      r.initByPattern accessPattern t fuel m := by
  have hpage : (Calling.pageRandomInit r fuel m).outcome tape t = r.pageRandomInit t fuel m := by
    rw [Calling.pageRandomInit, Caller.outcome_bind, randomizeSequence_inOrder_tape,
      MemRegion.pageRandomInit, Run.bind_assoc]
    apply Run.bind_congr rfl
    intro pages
    rw [Run.done_bind, Caller.outcome_bind_lift, randomizeSequence_tape]
  have hall : (Calling.allRandomInit r fuel m).outcome tape t = r.allRandomInit t fuel m := by
    simp only [Calling.allRandomInit, Caller.lift_bind]
    rw [Caller.outcome_bind_lift, randomizeSequence_tape]
    rfl
  rw [Calling.initByPattern, MemRegion.initByPattern]
  split
  · exact Caller.outcome_ret _ _
  split
  · exact hpage
  split
  · exact hall
  · exact hpage

/-- A worker builds the region that the numbers it is handed make. -/
theorem memRegionAllocLat_tape (t : Nat → Nat) (fuel : Nat) (pkt : MemLatBwThreadPacket) :
    (Calling.memRegionAllocLat fuel pkt).outcome tape t = memRegionAllocLat t fuel pkt := by
  rw [Calling.memRegionAllocLat, Calling.newMemRegion, Caller.outcome_bind, Caller.alone_bind,
    Caller.alone_lift, Run.bind_assoc, Run.bind_assoc, memRegionAllocLat]
  apply Run.bind_congr rfl
  intro r
  have hseed : (Calling.srand 0 >>= fun _ => pure r : Calling MemRegion).alone tape t =
      .done (r, t) := rfl
  rw [Run.done_bind, hseed, Run.done_bind, ← initByPattern_tape]
  exact Caller.outcome_bind_lift _ (fun m => .done (r, m)) _

variable {κ : Type} [DecidableEq κ] {s : Setup κ} {w : κ} {values : Nat → Nat → Nat}

theorem exists_tape {schedule : List κ}
    (h : (s.run (generator values) schedule).callers w = .ret x) :
    ∃ t, x = (s.callers w).outcome tape t := by
  induction schedule generalizing s with
  | nil =>
    have hret : s.callers w = .ret x := h
    exact ⟨fun _ => 0, by rw [hret, Caller.outcome_ret]⟩
  | cons v schedule ih =>
    obtain ⟨t, ht⟩ := ih (s := s.step (generator values) v) h
    by_cases hv : w = v
    · subst hv
      cases hcall : s.callers w with
      | ret y =>
        rw [Sharing.step, hcall] at ht
        exact ⟨t, by rw [ht, hcall]⟩
      | call o k =>
        rw [Sharing.step, hcall] at ht
        dsimp only at ht
        rw [Function.update_self] at ht
        cases o with
        | srand seed => exact ⟨t, ht⟩
        | rand =>
          -- the number it has just been handed comes first
          let drawn := (generator values .rand s.object).1
          exact ⟨fun n => if n = 0 then drawn else t (n - 1), ht⟩
    · exact ⟨t, by rw [ht, Sharing.step_callers_ne hv]⟩

/-- What a latency worker has come to: some numbers decide the order of its chain, but it is always
one closed chain of that many stops that begins at the start of the region. -/
def BuildsChain (config : Configuration) (fuel : Nat) (pkt : MemLatBwThreadPacket)
    (x : Run Fault (MemRegion × Memory)) : Prop :=
  (∃ rand, x = memRegionAllocLat rand fuel pkt) ∧
    Run.Safe (fun p => ∃ visit, p.1.Tours p.2 visit (p.1.chainLength config.accessPattern)) x

theorem Configuration.LatencySafe.buildsChain {config : Configuration} (hsafe : config.LatencySafe)
    (halloc : config.Allocated) (hline : 8 ≤ config.strideSizeB)
    (hP : 1 ≤ (config.latRegion 0).numActivePages) (hK : 1 ≤ (config.latRegion 0).numLinesInPage)
    (rand : Nat → Nat) (fuel : Nat) (node : Int32) (numThreads threadId : UInt32) :
    BuildsChain config fuel (prepareMemLatBwThreadPacket config node numThreads threadId)
      (memRegionAllocLat rand fuel
        (prepareMemLatBwThreadPacket config node numThreads threadId)) := by
  obtain ⟨hchunk, hstride, hchase⟩ := hsafe
  have hpos : config.strideSizeB.toNat ≠ 0 := fun h0 => hstride (UInt32.toNat_inj.1 h0)
  have hplain := Configuration.latRegion_plain halloc hchunk hstride (memTypeNode0 + node).toInt
  refine ⟨⟨rand, rfl⟩, ?_⟩
  rw [memRegionAllocLat_eq, if_neg (not_or.2 ⟨hchunk, hpos⟩)]
  have hinit := hplain.initByPattern_safe hchase rand fuel
  cases hm : (config.latRegion (memTypeNode0 + node).toInt).initByPattern config.accessPattern rand
      fuel .zeroed with
  | done m =>
    obtain ⟨visit, htours, -⟩ := MemRegion.initByPattern_tours hplain.wellFormed
      (UInt32.le_iff_toNat_le.1 hline) hplain.active_add_line hP hK hm
    exact .done ⟨visit, htours⟩
  | fault e =>
    rw [hm] at hinit
    cases hinit
  | running => exact .running

/-- However the draws of the workers mix, each latency worker builds one closed chain. -/
theorem setup_builds_chains (values : Nat → Nat → Nat) (fuel : Nat) (config : Configuration)
    (node : Int32) (numThreads : UInt32) (g : Generator) (hsafe : config.LatencySafe)
    (halloc : config.Allocated) (hline : 8 ≤ config.strideSizeB)
    (hP : 1 ≤ (config.latRegion 0).numActivePages)
    (hK : 1 ≤ (config.latRegion 0).numLinesInPage) :
    (∀ worker schedule x, ((setupIdleLatency fuel config node numThreads g).run (generator values)
        schedule).callers worker = .ret x →
      BuildsChain config fuel (prepareMemLatBwThreadPacket config node numThreads (.ofNat worker))
        x) ∧
    ∀ worker : Fin config.numThreads.toNat, worker.val = 0 → ∀ schedule x,
      ((setupLoadedLatency fuel config g).run (generator values) schedule).callers worker =
        .ret x →
      BuildsChain config fuel
        (prepareMemLatBwThreadPacket config (-1) config.numThreads (.ofNat worker)) x := by
  constructor
  · intro worker schedule x hret
    obtain ⟨t, ht⟩ := exists_tape hret
    have hx : x = memRegionAllocLat t fuel
        (prepareMemLatBwThreadPacket config node numThreads (.ofNat worker)) :=
      ht.trans (memRegionAllocLat_tape t fuel _)
    rw [hx]
    exact hsafe.buildsChain halloc hline hP hK t fuel node numThreads _
  · intro worker hfirst schedule x hret
    obtain ⟨t, ht⟩ := exists_tape hret
    rw [setupLoadedLatency, Sharing.start] at ht
    dsimp only at ht
    rw [if_pos hfirst, memRegionAllocLat_tape] at ht
    rw [ht]
    exact hsafe.buildsChain halloc hline hP hK t fuel (-1) config.numThreads _

/-- The draws of two workers alternate, and the first seeds last. -/
theorem setup_builds_chains_alternating :
    let numa := NumaConfig.new ⟨0, 2, 2, fun _ => true, fun _ => 2 ^ 34, fun _ => some fun _ => true⟩
    let config := { Configuration.byDefault .latency numa with
      numThreads := 2, regionSizeKb := 4, chunkSizeKb := 4, strideSizeB := 1024 }
    let first : Fin (2 : UInt32).toNat := ⟨0, by decide⟩
    let second : Fin (2 : UInt32).toNat := ⟨1, by decide⟩
    let schedule := [second, second, first, second, first, first, second, first, second, first,
      second, first]
    ∃ x, ((setupIdleLatency 16 config (-1) 2 ⟨1, 0⟩).run (generator glibcRand)
        schedule).callers second = .ret x ∧
      BuildsChain config 16 (prepareMemLatBwThreadPacket config (-1) 2 1) x := by
  intro numa config first second schedule
  obtain ⟨x, hx, -⟩ : ∃ x, ((setupIdleLatency 16 config (-1) 2 ⟨1, 0⟩).run (generator glibcRand)
      schedule).callers second = .ret x ∧ secondStop x = some 2048 :=
    ret_of_secondStop (by decide +kernel)
  have hchain := setup_builds_chains glibcRand 16 config (-1) 2 ⟨1, 0⟩ (by decide +kernel)
    (by decide +kernel) (by decide +kernel) (by decide +kernel) (by decide +kernel)
  exact ⟨x, hx, hchain.1 second schedule x hx⟩

end MmMem

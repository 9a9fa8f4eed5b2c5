import MmMem.BranchThroughput
import MmMem.MeasureLoopEnds
import Mathlib.Data.UInt

namespace MmMem
open Prog
set_option autoImplicit true

/-- What a routine has timed: the calls of the kernel after the first `first` and up to the last
of them all, by the readings of the clock after these; `CheckedAt n` says that the clock is read
after `n` calls, and `Reached` that a duration is long enough. -/
structure Accounted (clock : Nat → Int) (CheckedAt : Nat → Prop) (Reached : Int → Prop)
    (first last unit finished : Nat) (elapsedNs : Int) : Prop where
  elapsed : elapsedNs = clock last - clock first
  counted : finished = u64 (unit * (last - first))
  checked : CheckedAt last
  reached : Reached elapsedNs
  before : ∀ n, first < n → n < last → CheckedAt n → ¬ Reached (clock n - clock first)

/-- The loops read the clock after call `n` of the kernel. -/
def MeasureLoop.ChecksAfter (l : MeasureLoop) (n : Nat) : Prop :=
  0 < n ∧ Tally.PassesAt (2 ^ 64) l.loopUnit l.chkpt (n - 1)

variable {l : MeasureLoop} {clock : Nat → Int} {s : LoopState σ}

theorem MeasureLoop.Stopped.accounted (h : l.Stopped clock n s) :
    Accounted clock l.ChecksAfter (l.targetDurationNs ≤ ·) 0 s.calls l.loopUnit s.finished
      s.timer.elapsedTimeNs where
  elapsed := by rw [h.elapsed, h.calls]
  counted := by
    rw [h.finished, Tally.after_count, h.calls, Nat.sub_zero, Nat.mul_comm]
    rfl
  checked := by
    rw [h.calls]
    exact ⟨Nat.succ_pos n, h.breaks.1⟩
  reached := by
    rw [h.elapsed]
    exact h.breaks.2
  before k hpos hlt hcheck hreach := by
    obtain ⟨j, rfl⟩ : ∃ j, k = j + 1 := ⟨k - 1, by omega⟩
    rw [h.calls] at hlt
    exact h.before j (by omega) ⟨hcheck.2, hreach⟩

theorem MeasureLoop.run_accounted {kernel : Nat → σ → Run ε σ}
    (h : l.run clock kernel restart fuel cursor = .done s) :
    Accounted clock l.ChecksAfter (l.targetDurationNs ≤ ·) 0 s.calls l.loopUnit s.finished
      s.timer.elapsedTimeNs := by
  obtain ⟨-, n, hstop⟩ := MeasureLoop.run_stopped h
  exact hstop.accounted

theorem latPtr_accounted {kernelLat : σ → Run Fault σ} {pkt : MemLatBwThreadPacket}
    (h : latPtr kernelLat start clock fuel pkt r = .done s) : ∃ l, latLoop pkt r = .done l ∧
      Accounted clock l.ChecksAfter (pkt.targetDurationNs ≤ ·) 0 s.calls 256 s.finished
        s.timer.elapsedTimeNs := by
  obtain ⟨l, hl, hrun⟩ := Run.bind_eq_done.1 h
  obtain ⟨loopCount, -, hset⟩ := Run.bind_eq_done.1 hl
  obtain ⟨chkpt, -, hset⟩ := Run.bind_eq_done.1 hset
  cases hset
  exact ⟨_, hl, MeasureLoop.run_accounted hrun⟩

theorem bwSequential_accounted {kernelBw : σ → Run Fault σ} {pkt : MemLatBwThreadPacket}
    (h : bwSequential kernelBw start clock fuel pkt r = .done s) : ∃ l, bwLoop pkt r = .done l ∧
      Accounted clock l.ChecksAfter (pkt.targetDurationNs ≤ ·) 0 s.calls (256 * 32) s.finished
        s.timer.elapsedTimeNs := by
  obtain ⟨l, hl, hrun⟩ := Run.bind_eq_done.1 h
  obtain ⟨mbps, -, hset⟩ := Run.bind_eq_done.1 hl
  obtain ⟨chkpt, -, hset⟩ := Run.bind_eq_done.1 hset
  obtain ⟨loopCount, -, hset⟩ := Run.bind_eq_done.1 hset
  cases hset
  exact ⟨_, hl, MeasureLoop.run_accounted hrun⟩

/-- The bytes `copy_fragment` reports for the calls it has counted. -/
def MemLatBwThreadPacket.copiedBytes (pkt : MemLatBwThreadPacket) (finishedCalls : Nat) : Nat :=
  u64 (finishedCalls * pkt.fragmentSize.toNat)

theorem copyFragment_accounted {kernelMemcpy : Nat → Nat → Nat → σ → Run Fault σ}
    {pkt : MemLatBwThreadPacket}
    (h : copyFragment kernelMemcpy clock fuel pkt r cursor = .done s) :
    ∃ l, memcpyLoop pkt r = .done l ∧
      Accounted clock l.ChecksAfter (pkt.targetDurationNs ≤ ·) 0 s.calls pkt.fragmentSize.toNat
        (pkt.copiedBytes s.finished) s.timer.elapsedTimeNs := by
  obtain ⟨l, hl, hrun⟩ := Run.bind_eq_done.1 h
  obtain ⟨chkpt, -, hset⟩ := Run.bind_eq_done.1 hl
  obtain ⟨loopCount, -, hset⟩ := Run.bind_eq_done.1 hset
  cases hset
  obtain ⟨helapsed, hcounted, hchecked, hreached, hbefore⟩ := MeasureLoop.run_accounted hrun
  refine ⟨_, hl, helapsed, ?_, hchecked, hreached, hbefore⟩
  rw [MemLatBwThreadPacket.copiedBytes, hcounted, Nat.one_mul, Nat.mul_comm, u64, u64, u64,
    Nat.mul_mod_mod]

variable {D : Type} [LE D] [DecidableLE D] {getElapsedTime : Int → D}

/-- The measured batches, after `n` calls of the kernel. -/
structure BranchState.At (getElapsedTime : Int → D) (clock : Nat → Int) (batchBranches : Nat)
    (sampleDuration : D) (n : Nat) (s : BranchState σ) : Prop where
  calls : s.calls = n
  pos : 0 < n
  finished : s.finishedBranches = u64 (batchBranches * (n - 1))
  elapsed : s.timer.elapsedTimeNs = s.timer.timePointBegin - clock 1
  before : ∀ k, 1 < k → k ≤ n → ¬ sampleDuration ≤ getElapsedTime (clock k - clock 1)

theorem branchLoop_accounted {run : Nat → σ → Run Fault σ} {sampleDuration : D}
    {s s' : BranchState σ} (hs : s.At getElapsedTime clock batchBranches sampleDuration n)
    (h : branchLoop getElapsedTime run clock batchBranches sampleDuration fuel s = .done s') :
    Accounted clock (1 < ·) (sampleDuration ≤ getElapsedTime ·) 1 s'.calls batchBranches
      s'.finishedBranches s'.timer.elapsedTimeNs := by
  induction fuel generalizing n s with
  | zero => cases h
  | succ fuel ih =>
    obtain ⟨cursor, -, h⟩ := Run.bind_eq_done.1 h
    have hpos := hs.pos
    have helapsed : s.timer.elapsedTimeNs + (clock (n + 1) - s.timer.timePointBegin) =
        clock (n + 1) - clock 1 := by
      rw [hs.elapsed]
      omega
    have hcounted : u64 (s.finishedBranches + batchBranches) = u64 (batchBranches * n) := by
      have hstep : batchBranches * n = batchBranches * (n - 1) + batchBranches := by
        rw [← Nat.mul_succ, Nat.succ_eq_add_one, Nat.sub_add_cancel hpos]
      rw [hs.finished, hstep, u64, u64, u64, Nat.mod_add_mod]
    simp only [Timer.endTimer, hs.calls, helapsed, hcounted] at h
    split at h
    · next hreached =>
      cases h
      refine ⟨rfl, by rw [Nat.add_sub_cancel], Nat.succ_lt_succ hpos, hreached, ?_⟩
      intro k hk hlt _
      exact hs.before k hk (Nat.le_of_lt_succ hlt)
    · next hshort =>
      refine ih (n := n + 1) ⟨rfl, Nat.succ_pos n, ?_, rfl, fun k hk hle => ?_⟩ h
      · rw [Nat.add_sub_cancel]
        rfl
      · rcases Nat.lt_succ_iff_lt_or_eq.1 (Nat.lt_succ_of_le hle) with hlt | rfl
        · exact hs.before k hk (by omega)
        · exact hshort

theorem branchTp_accounted [Zero D] {counter : CycleCounter D}
    {run : BranchCase → Nat → σ → Run Fault σ}
    {pkt : BrPredThreadPacket D} {result : BranchResult D σ}
    (h : branchTp getElapsedTime counter run clock fuel pkt cursor = .done result) :
    ∃ kernel, branchCases[pkt.caseIndex]? = some kernel ∧
      Accounted clock (1 < ·) (pkt.sampleDuration ≤ getElapsedTime ·) 1 result.state.calls
        (takenBranches kernel.branches batchRounds) result.state.finishedBranches
        result.state.timer.elapsedTimeNs := by
  obtain ⟨kernel, hkernel, h⟩ := Run.bind_eq_done.1 h
  obtain ⟨warm, -, h⟩ := Run.bind_eq_done.1 h
  obtain ⟨s, hloop, h⟩ := Run.bind_eq_done.1 h
  cases h
  refine ⟨kernel, ?_, branchLoop_accounted (n := 1) ⟨rfl, Nat.one_pos, ?_, ?_, ?_⟩ hloop⟩
  · rw [vectorAt] at hkernel
    split at hkernel
    · next hx =>
      cases hkernel
      exact hx
    · cases hkernel
  · rw [Nat.sub_self, Nat.mul_zero]
    rfl
  · exact (Int.sub_self _).symm
  · intro k hk hle
    omega

/-- The checkpointed loops account for what they have timed, in 64 bits: the interval between the
first and the last reading of the clock, and the calls of the kernel made within it. -/
theorem checkpointed_loops_account :
    (∀ (σ : Type) (kernelLat : σ → Run Fault σ) start clock fuel pkt r (s : LoopState σ),
      latPtr kernelLat start clock fuel pkt r = .done s → ∃ l, latLoop pkt r = .done l ∧
        Accounted clock l.ChecksAfter (pkt.targetDurationNs ≤ ·) 0 s.calls 256 s.finished
          s.timer.elapsedTimeNs) ∧
    (∀ (σ : Type) (kernelBw : σ → Run Fault σ) start clock fuel pkt r (s : LoopState σ),
      bwSequential kernelBw start clock fuel pkt r = .done s → ∃ l, bwLoop pkt r = .done l ∧
        Accounted clock l.ChecksAfter (pkt.targetDurationNs ≤ ·) 0 s.calls (256 * 32) s.finished
          s.timer.elapsedTimeNs) ∧
    (∀ (σ : Type) (kernelMemcpy : Nat → Nat → Nat → σ → Run Fault σ) clock fuel pkt r cursor
      (s : LoopState σ), copyFragment kernelMemcpy clock fuel pkt r cursor = .done s →
        ∃ l, memcpyLoop pkt r = .done l ∧
          Accounted clock l.ChecksAfter (pkt.targetDurationNs ≤ ·) 0 s.calls
            pkt.fragmentSize.toNat (pkt.copiedBytes s.finished) s.timer.elapsedTimeNs) ∧
    ∀ (σ D : Type) [LinearOrder D] [Zero D] (getElapsedTime : Int → D) counter
      (run : BranchCase → Nat → σ → Run Fault σ) clock fuel pkt cursor (result : BranchResult D σ),
      branchTp getElapsedTime counter run clock fuel pkt cursor = .done result →
        ∃ kernel, branchCases[pkt.caseIndex]? = some kernel ∧
          Accounted clock (1 < ·) (pkt.sampleDuration ≤ getElapsedTime ·) 1 result.state.calls
            (takenBranches kernel.branches batchRounds) result.state.finishedBranches
            result.state.timer.elapsedTimeNs :=
  ⟨fun _ _ _ _ _ _ _ _ h => latPtr_accounted h, fun _ _ _ _ _ _ _ _ h => bwSequential_accounted h,
    fun _ _ _ _ _ _ _ _ h => copyFragment_accounted h,
    fun _ _ _ _ _ _ _ _ _ _ _ _ h => branchTp_accounted h⟩

/-- A branch case whose batches take 400 ns, for 1000 ns: three batches after the warm-up. -/
theorem checkpointed_loops_account_branches :
    let clock : Nat → Int := fun n => 400 * n
    ∃ result, branchTp (σ := Unit) (D := Int) id ⟨none, none, .ok 0⟩ (fun _ _ _ => .done ()) clock 4
        ⟨0, 1000⟩ () = .done result ∧ result.state.calls = 4 ∧
      Accounted clock (1 < ·) ((1000 : Int) ≤ ·) 1 result.state.calls 589823
        result.state.finishedBranches result.state.timer.elapsedTimeNs := by
  intro clock
  have hrun : branchTp (σ := Unit) (D := Int) id ⟨none, none, .ok 0⟩ (fun _ _ _ => .done ()) clock 4
      ⟨0, 1000⟩ () = .done ⟨1200, 0, [], ⟨4, 1769469, ⟨1200, 1600, 1200⟩, ()⟩⟩ := by
    decide +kernel
  obtain ⟨kernel, hkernel, haccounted⟩ := checkpointed_loops_account.2.2.2 Unit Int id
    ⟨none, none, .ok 0⟩ (fun _ _ _ => .done ()) clock 4 ⟨0, 1000⟩ () _ hrun
  obtain rfl : branchCase 8 4 false = kernel := Option.some.inj hkernel
  have hbranches : takenBranches (branchCase 8 4 false).branches batchRounds = 589823 := by
    decide +kernel
  rw [hbranches] at haccounted
  exact ⟨_, hrun, rfl, haccounted⟩

/-- Copies of 1 TiB, 250 seconds each, for 2^32 - 1 seconds: the bytes do not fit 64 bits. -/
theorem copied_bytes_wrap :
    let numa := NumaConfig.new ⟨0, 1, 1, fun _ => true, fun _ => 2 ^ 42, fun _ => some fun _ => true⟩
    let config := { Configuration.byDefault .memcpy numa with
      regionSizeKb := 2 ^ 30, fragmentSizeB := 2 ^ 40, targetDurationS := 4294967295 }
    let pkt := (prepareMemLatBwThreadPacket config (-1) 1 0).forMemcpy config 250000000000
    Configuration.parseOptions .memcpy numa ["cpu_memcpy".toList, "-b1073741824".toList,
        "-f1099511627776".toList, "-t4294967295".toList] = .done (.ok config) ∧
      config.checkFragment = .ok config ∧
      ∃ r fuel s, memRegionAllocMemcpy (prepareMemLatBwThreadPacket config (-1) 1 0) = .done (r, r) ∧
        copyFragment (fun _ _ _ => .done) (fun n => 250000000000 * n) fuel pkt r () = .done s ∧
        pkt.copiedBytes s.finished ≠ pkt.fragmentSize.toNat * s.calls := by
  intro numa config pkt
  let clock : Nat → Int := fun n => 250000000000 * n
  let r := MemRegion.layout (2 ^ 40) (2 ^ 40) 4096 64 0 0
  let l : MeasureLoop := ⟨1, 1, 1, 4294967295000000000⟩
  have hclock : Advancing clock := by
    constructor
    · intro a b hab
      change (250000000000 : Int) * a ≤ 250000000000 * b
      omega
    · intro b
      refine ⟨b.toNat, ?_⟩
      change b ≤ (250000000000 : Int) * b.toNat
      omega
  have hl : memcpyLoop pkt r = .done l := by decide +kernel
  have hreach : l.targetDurationNs ≤ clock 17179870 - clock 0 := by decide +kernel
  have hreturns : Returning fun (_ : Nat) (_ : Unit) => (.done () : Run Fault Unit) :=
    fun _ c => ⟨c, rfl⟩
  obtain ⟨fuel, s, hrun, hfinished, hlast⟩ :=
    MeasureLoop.exists_run_past (l := l) hclock hreturns id (by decide) (by decide) hreach
      (by decide) ()
  refine ⟨by decide +kernel, by decide +kernel, r, fuel, s, by decide +kernel, ?_, fun he => ?_⟩
  · rw [copyFragment, hl]
    exact hrun
  · have hpast : (4294967295000000000 : Int) ≤
        250000000000 * s.calls - 250000000000 * (0 : Nat) := hlast
    have hfragment : pkt.fragmentSize.toNat = 1099511627776 := by decide +kernel
    have hlt : pkt.copiedBytes s.finished < 2 ^ 64 := u64_lt _
    rw [he, hfragment] at hlt
    omega

end MmMem

import MmMem.TimedLoops

namespace MmMem
open Prog
set_option autoImplicit true

/-- A slot of `WorkerThreadManager`; `finish` is when its thread returns, if it ever does. -/
structure WorkerThread where
  /-- a start routine is set -/
  startRoutine : Bool
  boundCpu : Option Nat
  /-- what `pthread_create` returns for it -/
  createResult : Nat
  finish : Option Int
  deriving Repr, DecidableEq

/-- `create`: the slots with their `created_` flags, or those that could not be started. -/
def create (threads : List WorkerThread) :
    Except (List WorkerThread) (List (WorkerThread × Bool)) :=
  let failed := threads.filter fun t => t.startRoutine && t.createResult != 0
  if failed.length > 0 then .error failed
  else .ok (threads.map fun t => (t, t.startRoutine && t.createResult == 0))

/-- `strtoull` of the standard library, in base ten. -/
def strtoull (text : Text) : Nat :=
  let text := text.dropWhile fun c => c = ' ' ∨ '\t' ≤ c ∧ c ≤ '\r'
  let digits := if text.head? = some '-' ∨ text.head? = some '+' then text.tail else text
  let value := (digits.takeWhile Char.isDigit).foldl (fun n c => n * 10 + (c.toNat - '0'.toNat)) 0
  if value ≥ 2 ^ 64 then 2 ^ 64 - 1
  else if text.head? = some '-' then u64Sub 0 value
  else value

/-- `joinTimeoutSec_`, from the value of `MM_MEM_JOIN_TIMEOUT_S`. -/
def joinTimeoutSec (env : Option Text) : Nat :=
  match env with
  | none => 300
  | some [] => 300
  | some text => strtoull text

def etimedout : Nat := 110

/-- `pthread_timedjoin_np` called at `now`: what it returns, and when. -/
def pthreadTimedjoinNp (now deadline : Int) (finish : Option Int) : Nat × Int :=
  match finish with
  | some f => if f ≤ max now deadline then (0, max now f) else (etimedout, max now deadline)
  | none => (etimedout, max now deadline)

/-- The lines `join` writes to the standard error. -/
inductive JoinReport where
  | didNotFinishWithin (timeoutS : Nat)
  | stuck (thread : Nat) (boundCpu : Option Nat)
  | joinFailed (thread : Nat) (boundCpu : Option Nat) (rc : Nat)
  | neverFinished (stuck numThreads : Nat)
  deriving Repr, DecidableEq

structure JoinState where
  now : Int
  stuck : Nat
  reports : List JoinReport
  deriving Repr, DecidableEq

def joinThread (timeoutS : Nat) (deadline : Int) (i : Nat) (t : WorkerThread) (s : JoinState) :
    JoinState :=
  let (rc, now) := pthreadTimedjoinNp s.now deadline t.finish
  if rc = etimedout then
    { now
      stuck := s.stuck + 1
      reports := s.reports ++ (if s.stuck = 0 then [.didNotFinishWithin timeoutS] else []) ++
        [.stuck i t.boundCpu] }
  else if rc ≠ 0 then
    { now, stuck := s.stuck + 1, reports := s.reports ++ [.joinFailed i t.boundCpu rc] }
  else { s with now }

/-- The loop of `join`, from slot `i` on. -/
def joinThreads (timeoutS : Nat) (deadline : Int) :
    Nat → List (WorkerThread × Bool) → JoinState → JoinState
  | _, [], s => s
  | i, (t, created) :: threads, s =>
    joinThreads timeoutS deadline (i + 1) threads
      (if created then joinThread timeoutS deadline i t s else s)

inductive JoinOutcome where
  | returned
  /-- `exit(1)` -/
  | exited (reports : List JoinReport)
  | blocked
  deriving Repr, DecidableEq

/-- The deadline of `join` on a clock of 64-bit nanoseconds: the sum in `tv_sec` wraps around. -/
def joinDeadline (now : Int) (timeoutS : Nat) : Int :=
  let sec := (Int64.ofInt now).toInt / 1000000000
  let tvSec := Int64.ofInt sec + (UInt64.ofNat timeoutS).toInt64
  now + (tvSec.toInt - sec) * 1000000000

/-- `join`, called at `now` on the clock the workers are timed by. -/
def join (env : Option Text) (now : Int) (threads : List (WorkerThread × Bool)) : JoinOutcome :=
  let timeoutS := joinTimeoutSec env
  if timeoutS > 0 then
    let deadline := joinDeadline now timeoutS
    let s := joinThreads timeoutS deadline 0 threads { now, stuck := 0, reports := [] }
    if s.stuck > 0 then .exited (s.reports ++ [.neverFinished s.stuck threads.length])
    else .returned
  else if threads.all fun (t, created) => !created || t.finish.isSome then .returned
  else .blocked

/-- The thread has returned by the deadline. -/
def WorkerThread.InTime (t : WorkerThread) (deadline : Int) : Prop :=
  ∃ f, t.finish = some f ∧ f ≤ deadline

variable {deadline now : Int} {s : JoinState} {t : WorkerThread}

theorem joinThread_inTime (timeoutS : Nat) (h : t.InTime deadline) (hnow : s.now ≤ deadline)
    (i : Nat) :
    ∃ later ≤ deadline, joinThread timeoutS deadline i t s = { s with now := later } := by
  obtain ⟨f, hf, hle⟩ := h
  have hjoin : pthreadTimedjoinNp s.now deadline t.finish = (0, max s.now f) := by
    rw [hf, pthreadTimedjoinNp, if_pos (Int.le_trans hle (Int.le_max_right _ _))]
  rw [joinThread, hjoin]
  exact ⟨max s.now f, Int.max_le.2 ⟨hnow, hle⟩, rfl⟩

theorem joinThread_late (timeoutS : Nat) (h : ¬ t.InTime deadline) (hnow : s.now ≤ deadline)
    (i : Nat) :
    (joinThread timeoutS deadline i t s).now ≤ deadline ∧
      0 < (joinThread timeoutS deadline i t s).stuck := by
  have hjoin : pthreadTimedjoinNp s.now deadline t.finish = (etimedout, deadline) := by
    rcases hf : t.finish with _ | f
    · rw [pthreadTimedjoinNp, Int.max_eq_right hnow]
    · rw [pthreadTimedjoinNp, Int.max_eq_right hnow, if_neg fun hle => h ⟨f, hf, hle⟩]
  rw [joinThread, hjoin]
  exact ⟨Int.le_refl _, Nat.succ_pos _⟩

theorem joinSlot_step (timeoutS : Nat) (t : WorkerThread) (hnow : s.now ≤ deadline) (i : Nat)
    (created : Bool) :
    (if created then joinThread timeoutS deadline i t s else s).now ≤ deadline ∧
      ((if created then joinThread timeoutS deadline i t s else s).stuck = 0 ↔
        s.stuck = 0 ∧ (created → t.InTime deadline)) := by
  cases created with
  | false => exact ⟨hnow, ⟨fun h => ⟨h, nofun⟩, And.left⟩⟩
  | true =>
    rw [if_pos rfl]
    by_cases hin : t.InTime deadline
    · obtain ⟨later, hle, hjoin⟩ := joinThread_inTime timeoutS hin hnow i
      rw [hjoin]
      exact ⟨hle, ⟨fun h => ⟨h, fun _ => hin⟩, And.left⟩⟩
    · obtain ⟨hle, hpos⟩ := joinThread_late timeoutS hin hnow i
      refine ⟨hle, ⟨fun h => ?_, fun h => absurd (h.2 rfl) hin⟩⟩
      rw [h] at hpos
      exact absurd hpos (Nat.lt_irrefl 0)

theorem joinThreads_stuck (timeoutS : Nat) (hnow : s.now ≤ deadline)
    (threads : List (WorkerThread × Bool)) (i : Nat) :
    (joinThreads timeoutS deadline i threads s).stuck = 0 ↔
      s.stuck = 0 ∧ ∀ p ∈ threads, p.2 → p.1.InTime deadline := by
  induction threads generalizing i s with
  | nil => exact ⟨fun h => ⟨h, fun p hp => absurd hp List.not_mem_nil⟩, And.left⟩
  | cons p threads ih =>
    obtain ⟨t, created⟩ := p
    obtain ⟨hle, hstep⟩ := joinSlot_step timeoutS t hnow i created
    rw [joinThreads, ih hle, hstep, List.forall_mem_cons, and_assoc]

/-- A timeout of less than 292 billion years ends that much later. -/
theorem joinDeadline_eq (now : Int) (h : timeoutS < 2 ^ 63 - 2 ^ 34) :
    joinDeadline now timeoutS = now + timeoutS * 1000000000 := by
  have hsec : -2 ^ 34 ≤ (Int64.ofInt now).toInt / 1000000000 ∧
      (Int64.ofInt now).toInt / 1000000000 < 2 ^ 34 := by
    have hmin := (Int64.ofInt now).le_toInt
    have hmax := (Int64.ofInt now).toInt_lt
    omega
  have htimeout : (UInt64.ofNat timeoutS).toInt64.toInt = timeoutS := by
    rw [UInt64.toInt64_ofNat', Int64.toInt_ofNat_of_lt (by omega)]
  simp only [joinDeadline]
  rw [Int64.toInt_add, Int64.toInt_ofInt_of_le (by omega) (by omega), htimeout,
    Int.bmod_eq_of_le (by omega) (by omega), add_sub_cancel_left]

/-- The longest timeout has passed before it begins. -/
example : joinDeadline 1000000000 (2 ^ 63 - 1) < 1000000000 := by decide +kernel

theorem join_returned_iff (now : Int) (threads : List (WorkerThread × Bool)) :
    join none now threads = .returned ↔
      ∀ p ∈ threads, p.2 → p.1.InTime (now + 300 * 1000000000) := by
  let s : JoinState := { now, stuck := 0, reports := [] }
  have hnow : s.now ≤ now + 300 * 1000000000 := by
    change now ≤ now + 300 * 1000000000
    omega
  have hstuck := joinThreads_stuck 300 hnow threads 0
  apply Iff.trans _ (hstuck.trans (and_iff_right rfl))
  have hdeadline : joinDeadline now 300 = now + 300 * 1000000000 := joinDeadline_eq now (by decide)
  rw [join, joinTimeoutSec, if_pos (by decide), hdeadline]
  constructor
  · intro h
    by_contra h0
    rw [if_pos (Nat.pos_of_ne_zero h0)] at h
    cases h
  · intro h0
    exact if_neg fun hpos => absurd h0 (Nat.ne_of_gt hpos)

/-- A worker with the readings of its clock after each call of its kernel; the first is taken
after `first` calls, and `checkedAt` says where the others are. -/
structure MeasuredWorker where
  thread : WorkerThread
  clock : Nat → Int
  first : Nat
  checkedAt : Nat → Prop

/-- The worker returns at its first checkpoint whose elapsed time reaches the target. -/
structure MeasuredWorker.Returns (w : MeasuredWorker) (targetNs : Int) (last : Nat) : Prop where
  mono : Monotone w.clock
  later : w.first < last
  checked : w.checkedAt last
  reached : targetNs ≤ w.clock last - w.clock w.first
  before : ∀ n, w.first < n → n < last → w.checkedAt n →
    ¬ targetNs ≤ w.clock n - w.clock w.first
  finish : w.thread.finish = some (w.clock last)

/-- Some checkpoint reaches the target by the deadline. -/
def MeasuredWorker.ReachesBy (w : MeasuredWorker) (targetNs deadline : Int) : Prop :=
  ∃ n, w.first < n ∧ w.checkedAt n ∧ targetNs ≤ w.clock n - w.clock w.first ∧ w.clock n ≤ deadline

theorem MeasuredWorker.Returns.inTime_iff {w : MeasuredWorker} (h : w.Returns targetNs last)
    (deadline : Int) : w.thread.InTime deadline ↔ w.ReachesBy targetNs deadline := by
  constructor
  · rintro ⟨f, hf, hle⟩
    rw [h.finish, Option.some.injEq] at hf
    subst hf
    exact ⟨last, h.later, h.checked, h.reached, hle⟩
  · rintro ⟨n, hfirst, hchecked, hreached, hle⟩
    have hlast : last ≤ n := by
      by_contra hlt
      exact h.before n hfirst (Nat.lt_of_not_le hlt) hchecked hreached
    exact ⟨_, h.finish, Int.le_trans (h.mono hlast) hle⟩

/-- A worker that has run the checkpointed loops returns at the first such checkpoint. -/
theorem MeasuredWorker.Returns.of_run {l : MeasureLoop} {clock : Nat → Int}
    {kernel : Nat → σ → Run ε σ} {s : LoopState σ} {t : WorkerThread} (hmono : Monotone clock)
    (h : l.run clock kernel restart fuel cursor = .done s)
    (hfinish : t.finish = some s.timer.timePointEnd) :
    MeasuredWorker.Returns ⟨t, clock, 0, l.ChecksAfter⟩ l.targetDurationNs s.calls := by
  obtain ⟨-, n, hstop⟩ := MeasureLoop.run_stopped h
  obtain ⟨helapsed, -, hchecked, hreached, hbefore⟩ := hstop.accounted
  refine ⟨hmono, hchecked.1, hchecked, ?_, hbefore, ?_⟩
  · rw [← helapsed]
    exact hreached
  · rw [hfinish, hstop.timePointEnd, hstop.calls]

theorem create_ok {threads : List WorkerThread} (h : create threads = .ok created) :
    created = threads.map fun t => (t, t.startRoutine) := by
  rw [create] at h
  split at h
  · cases h
  · next hnone =>
    cases h
    apply List.map_congr_left
    intro t ht
    by_contra hne
    apply hnone
    apply List.length_pos_of_mem
    apply List.mem_filter.2 ⟨ht, _⟩
    cases hs : t.startRoutine with
    | false => simp only [hs, Bool.false_and, not_true_eq_false] at hne
    | true => simpa [hs] using hne

/-- `join` after `create` returns exactly if every worker has reached the target duration at a
checkpoint within 300 seconds; otherwise the watchdog ends the program. -/
theorem join_returns_iff (t : TestingType) (numa : NumaConfig) (argv : List Text)
    (config : Configuration) (workers : List MeasuredWorker) (now : Int)
    (created : List (WorkerThread × Bool))
    (_ : Configuration.parseOptions t numa argv = .done (.ok config))
    (hcreate : create (workers.map (·.thread)) = .ok created)
    (hworkers : ∀ w ∈ workers, w.thread.startRoutine →
      ∃ last, w.Returns (config.targetDurationS.toNat * 1000000000) last) :
    join none now created = .returned ↔ ∀ w ∈ workers, w.thread.startRoutine →
      w.ReachesBy (config.targetDurationS.toNat * 1000000000) (now + 300 * 1000000000) := by
  rw [join_returned_iff, create_ok hcreate, List.map_map]
  constructor
  · intro h w hw hstart
    obtain ⟨last, hreturns⟩ := hworkers w hw hstart
    exact (hreturns.inTime_iff _).1 (h _ (List.mem_map.2 ⟨w, hw, rfl⟩) hstart)
  · intro h p hp hstart
    obtain ⟨w, hw, rfl⟩ := List.mem_map.1 hp
    obtain ⟨last, hreturns⟩ := hworkers w hw hstart
    exact (hreturns.inTime_iff _).2 (h w hw hstart)

/-- A worker that reads its clock every second, after each call of its kernel. -/
def everySecond (seconds : Nat) : MeasuredWorker where
  thread := ⟨true, some 0, 0, some (1000000000 * seconds)⟩
  clock n := 1000000000 * n
  first := 0
  checkedAt _ := True

theorem everySecond_returns (h : 0 < seconds) :
    (everySecond seconds).Returns (seconds * 1000000000) seconds where
  mono a b hab := by
    change (1000000000 : Int) * a ≤ 1000000000 * b
    omega
  later := h
  checked := trivial
  reached := by
    change (seconds * 1000000000 : Int) ≤ 1000000000 * seconds - 1000000000 * (0 : Nat)
    omega
  before n _ hlt _ := by
    change ¬ (seconds * 1000000000 : Int) ≤ 1000000000 * n - 1000000000 * (0 : Nat)
    omega
  finish := rfl

theorem join_returns_iff_default :
    let numa := NumaConfig.new ⟨0, 1, 1, fun _ => true, fun _ => 2 ^ 34, fun _ => some fun _ => true⟩
    create [(everySecond 10).thread] = .ok [((everySecond 10).thread, true)] ∧
      join none 0 [((everySecond 10).thread, true)] = .returned ∧
      (Configuration.byDefault .latency numa).targetDurationS = 10 := by
  intro numa
  have hcreate : create ([everySecond 10].map (·.thread)) =
      .ok [((everySecond 10).thread, true)] := by decide
  refine ⟨hcreate, ?_, by decide +kernel⟩
  apply (join_returns_iff .latency numa ["cpu_idle_latency".toList] _ _ 0 _
    (Configuration.parseOptions_none _ _ _) hcreate fun w hw _ => ?_).2
  · intro w hw _
    obtain rfl := List.mem_singleton.1 hw
    exact ⟨10, by decide, trivial, by decide +kernel, by decide⟩
  · obtain rfl := List.mem_singleton.1 hw
    exact ⟨10, everySecond_returns (by decide)⟩

/-- A duration of 301 seconds is accepted, and no worker survives it. -/
theorem watchdog_kills_healthy_run :
    let numa := NumaConfig.new ⟨0, 1, 1, fun _ => true, fun _ => 2 ^ 34, fun _ => some fun _ => true⟩
    let config := { Configuration.byDefault .latency numa with targetDurationS := 301 }
    Configuration.parseOptions .latency numa ["cpu_idle_latency".toList, "-t301".toList] =
        .done (.ok config) ∧
      (everySecond 301).Returns (config.targetDurationS.toNat * 1000000000) 301 ∧
      create [(everySecond 301).thread] = .ok [((everySecond 301).thread, true)] ∧
      join none 0 [((everySecond 301).thread, true)] =
        .exited [.didNotFinishWithin 300, .stuck 0 (some 0), .neverFinished 1 1] := by
  intro numa config
  refine ⟨by decide +kernel, everySecond_returns (by decide), by decide, by decide +kernel⟩

end MmMem

import MmMem.Library.BoundedRun
import MmMem.Library.MachineInt
import MmMem.Library.WrappingTally
import Mathlib.Data.Int.ConditionallyCompleteOrder
import Mathlib.Order.ConditionallyCompleteLattice.Basic
import Mathlib.Order.Monotone.Defs

namespace MmMem
open Prog
set_option autoImplicit true

/-- `Timer`; the clock is read in nanoseconds. -/
structure Timer where
  timePointBegin : Int
  timePointEnd : Int
  elapsedTimeNs : Int
  deriving Repr, DecidableEq

def Timer.startTimer (now : Int) : Timer := ⟨now, 0, 0⟩

def Timer.endTimer (t : Timer) (now : Int) : Timer :=
  { t with timePointEnd := now, elapsedTimeNs := t.elapsedTimeNs + (now - t.timePointBegin) }

def Timer.resumeTimer (t : Timer) : Timer := { t with timePointBegin := t.timePointEnd }

/-- Nanoseconds as seconds: converted to a `double`, and divided. -/
def elapsedSeconds (ns : Int) : Float := Float.ofInt ns / 1e9

def Timer.getElapsedTime (t : Timer) : Float := elapsedSeconds t.elapsedTimeNs

/-- What `lat_ptr`, `bw_sequential` and `copy_fragment` set up before they measure. -/
structure MeasureLoop where
  loopCount : Nat
  /-- the work one call of the kernel counts for -/
  loopUnit : Nat
  chkpt : Nat
  targetDurationNs : Int
  deriving Repr, DecidableEq

/-- The variables of the loops; `cursor` is what the kernel works on. -/
structure LoopState (σ : Type) where
  calls : Nat
  finished : Nat
  nextChkpt : Nat
  numChkpts : Nat
  timer : Timer
  cursor : σ
  deriving Repr, DecidableEq

/-- The state with the cursor seen through a function. -/
def LoopState.map (f : σ → τ) (s : LoopState σ) : LoopState τ where
  calls := s.calls
  finished := s.finished
  nextChkpt := s.nextChkpt
  numChkpts := s.numChkpts
  timer := s.timer
  cursor := f s.cursor

namespace MeasureLoop

/-- A checkpoint; the loop breaks there if the target duration is reached. -/
def checkpoint (l : MeasureLoop) (now : Int) (s : LoopState σ) : Bool × LoopState σ :=
  let s := { s with
    timer := s.timer.endTimer now
    nextChkpt := u64 (s.nextChkpt + l.chkpt)
    numChkpts := u32 (s.numChkpts + 1) }
  if s.timer.elapsedTimeNs ≥ l.targetDurationNs then (true, s)
  else (false, { s with timer := s.timer.resumeTimer })

/-- One trip of the inner loop, and whether it breaks. `clock n` is the reading after `n` calls
of the kernel. -/
def trip (l : MeasureLoop) (clock : Nat → Int) (kernel : Nat → σ → Run ε σ) (i : Nat)
    (s : LoopState σ) : Run ε (Bool × LoopState σ) := do
  let cursor ← kernel i s.cursor
  let s := { s with cursor, calls := s.calls + 1, finished := u64 (s.finished + l.loopUnit) }
  return if s.finished > s.nextChkpt then l.checkpoint (clock s.calls) s else (false, s)

/-- The inner loop with `n` trips left: the index it ends with. -/
def forLoop (l : MeasureLoop) (clock : Nat → Int) (kernel : Nat → σ → Run ε σ) :
    Nat → Nat → LoopState σ → Run ε (Nat × LoopState σ)
  | 0, i, s => .done (i, s)
  | n + 1, i, s => do
    let (broke, s) ← l.trip clock kernel i s
    if broke then return (i, s) else l.forLoop clock kernel n (i + 1) s

/-- The outer loop, for at most that many passes. -/
def whileTrue (l : MeasureLoop) (clock : Nat → Int) (kernel : Nat → σ → Run ε σ) (restart : σ → σ) :
    Nat → LoopState σ → Run ε (LoopState σ)
  | 0, _ => .running
  | fuel + 1, s => do
    let (i, s) ← l.forLoop clock kernel l.loopCount 0 { s with cursor := restart s.cursor }
    if i ≠ l.loopCount then return s else l.whileTrue clock kernel restart fuel s

def start (l : MeasureLoop) (clock : Nat → Int) (cursor : σ) : LoopState σ :=
  { calls := 0, finished := 0, nextChkpt := l.chkpt, numChkpts := 0,
    timer := .startTimer (clock 0), cursor }

def run (l : MeasureLoop) (clock : Nat → Int) (kernel : Nat → σ → Run ε σ) (restart : σ → σ)
    (fuel : Nat) (cursor : σ) : Run ε (LoopState σ) :=
  l.whileTrue clock kernel restart fuel (l.start clock cursor)

end MeasureLoop

/-- A clock that never runs backwards and passes every bound. -/
structure Advancing (clock : Nat → Int) : Prop where
  mono : Monotone clock
  unbounded : ∀ b, ∃ n, b ≤ clock n

/-- Every call of the kernel returns. -/
def Returning (kernel : Nat → σ → Run ε σ) : Prop := ∀ i c, ∃ c', kernel i c = .done c'

namespace MeasureLoop

variable {l : MeasureLoop} {clock : Nat → Int} {kernel : Nat → σ → Run ε σ} {restart : σ → σ}
  {s s' : LoopState σ}

/-- The inner loop breaks after call `n + 1` of the kernel, unless it has before. -/
def BreaksAt (l : MeasureLoop) (clock : Nat → Int) (n : Nat) : Prop :=
  Tally.PassesAt (2 ^ 64) l.loopUnit l.chkpt n ∧ l.targetDurationNs ≤ clock (n + 1) - clock 0

/-- The state after `n` calls of the kernel, none of which broke the loop. -/
structure At (l : MeasureLoop) (clock : Nat → Int) (n : Nat) (s : LoopState σ) : Prop where
  calls : s.calls = n
  finished : s.finished = (Tally.after (2 ^ 64) l.loopUnit l.chkpt n).count
  nextChkpt : s.nextChkpt = (Tally.after (2 ^ 64) l.loopUnit l.chkpt n).mark
  elapsed : s.timer.elapsedTimeNs = s.timer.timePointBegin - clock 0
  before : ∀ m < n, ¬ l.BreaksAt clock m

/-- The state in which call `n + 1` of the kernel has broken the loop. -/
structure Stopped (l : MeasureLoop) (clock : Nat → Int) (n : Nat) (s : LoopState σ) : Prop where
  breaks : l.BreaksAt clock n
  before : ∀ m < n, ¬ l.BreaksAt clock m
  calls : s.calls = n + 1
  finished : s.finished = (Tally.after (2 ^ 64) l.loopUnit l.chkpt (n + 1)).count
  timePointEnd : s.timer.timePointEnd = clock (n + 1)
  elapsed : s.timer.elapsedTimeNs = clock (n + 1) - clock 0

theorem At.start (l : MeasureLoop) (clock : Nat → Int) (cursor : σ) :
    l.At clock 0 (l.start clock cursor) where
  calls := rfl
  finished := rfl
  nextChkpt := rfl
  elapsed := (Int.sub_self _).symm
  before m hm := absurd hm (Nat.not_lt_zero m)

theorem At.rewind (h : l.At clock n s) (cursor : σ) :
    l.At clock n { s with cursor } :=
  ⟨h.calls, h.finished, h.nextChkpt, h.elapsed, h.before⟩

theorem At.trip (h : l.At clock n s) (ht : l.trip clock kernel i s = .done (broke, s')) :
    broke = true ∧ l.Stopped clock n s' ∨ broke = false ∧ l.At clock (n + 1) s' := by
  obtain ⟨cursor, -, ht⟩ := Run.bind_eq_done.1 ht
  have hcount : u64 (s.finished + l.loopUnit) =
      (Tally.after (2 ^ 64) l.loopUnit l.chkpt (n + 1)).count := by
    rw [h.finished]
    rfl
  have hpasses : u64 (s.finished + l.loopUnit) > s.nextChkpt ↔
      Tally.PassesAt (2 ^ 64) l.loopUnit l.chkpt n := by
    rw [hcount, h.nextChkpt, Tally.after_count]
    exact Iff.rfl
  have hbegin : s.timer.elapsedTimeNs + (clock (s.calls + 1) - s.timer.timePointBegin) =
      clock (n + 1) - clock 0 := by
    rw [h.elapsed, h.calls]
    omega
  simp only [Run.pure_eq, Run.done.injEq] at ht
  by_cases hp : Tally.PassesAt (2 ^ 64) l.loopUnit l.chkpt n
  · have hmark : u64 (s.nextChkpt + l.chkpt) =
        (Tally.after (2 ^ 64) l.loopUnit l.chkpt (n + 1)).mark := by
      rw [Tally.mark_passed hp, h.nextChkpt]
      rfl
    rw [if_pos (hpasses.2 hp)] at ht
    simp only [checkpoint, Timer.endTimer, hbegin] at ht
    split at ht
    · next hge =>
      obtain ⟨rfl, rfl⟩ := Prod.mk.inj ht
      exact .inl ⟨rfl, ⟨hp, hge⟩, h.before, by simp only [h.calls], hcount,
        by simp only [h.calls], rfl⟩
    · next hlt =>
      obtain ⟨rfl, rfl⟩ := Prod.mk.inj ht
      refine .inr ⟨rfl, by simp only [h.calls], hcount, hmark, ?_, fun m hm => ?_⟩
      · simp only [Timer.resumeTimer, h.calls]
      · rcases Nat.lt_succ_iff_lt_or_eq.1 hm with hm | rfl
        · exact h.before m hm
        · exact fun hb => hlt hb.2
  · rw [if_neg fun hc => hp (hpasses.1 hc)] at ht
    obtain ⟨rfl, rfl⟩ := Prod.mk.inj ht
    refine .inr ⟨rfl, by simp only [h.calls], hcount, ?_, h.elapsed, fun m hm => ?_⟩
    · rw [Tally.mark_kept hp, ← h.nextChkpt]
    · rcases Nat.lt_succ_iff_lt_or_eq.1 hm with hm | rfl
      · exact h.before m hm
      · exact fun hb => hp hb.1

theorem trip_returns (l : MeasureLoop) (clock : Nat → Int) (hk : Returning kernel) (i : Nat)
    (s : LoopState σ) :
    ∃ r, l.trip clock kernel i s = .done r := by
  obtain ⟨c, hc⟩ := hk i s.cursor
  rw [MeasureLoop.trip, hc, Run.done_bind]
  exact ⟨_, rfl⟩

/-- The inner loop stops early, or its index reaches the trip count. -/
theorem At.forLoop (h : l.At clock n s)
    (hf : l.forLoop clock kernel trips i s = .done (j, s')) :
    (i ≤ j ∧ j < i + trips ∧ ∃ m ≥ n, l.Stopped clock m s') ∨
      j = i + trips ∧ l.At clock (n + trips) s' := by
  induction trips generalizing n i s with
  | zero =>
    cases hf
    exact .inr ⟨rfl, h⟩
  | succ trips ih =>
    obtain ⟨⟨broke, t⟩, ht, hf⟩ := Run.bind_eq_done.1 hf
    rcases h.trip ht with ⟨rfl, hstop⟩ | ⟨rfl, hat⟩
    · cases hf
      exact .inl ⟨Nat.le_refl _, by omega, n, Nat.le_refl _, hstop⟩
    · rcases ih hat hf with ⟨hij, hlt, m, hm, hstop⟩ | ⟨rfl, hat⟩
      · exact .inl ⟨by omega, by omega, m, by omega, hstop⟩
      · rw [Nat.add_right_comm, Nat.add_assoc n] at hat
        exact .inr ⟨by omega, hat⟩

theorem forLoop_returns (l : MeasureLoop) (clock : Nat → Int) (hk : Returning kernel)
    (trips i : Nat) (s : LoopState σ) :
    ∃ r, l.forLoop clock kernel trips i s = .done r := by
  induction trips generalizing i s with
  | zero => exact ⟨_, rfl⟩
  | succ trips ih =>
    obtain ⟨⟨broke, t⟩, ht⟩ := trip_returns l clock hk i s
    rw [MeasureLoop.forLoop, ht, Run.done_bind]
    cases broke with
    | true => exact ⟨_, rfl⟩
    | false => exact ih (i + 1) t

theorem whileTrue_succ
    (hf : l.forLoop clock kernel l.loopCount 0 { s with cursor := restart s.cursor } =
      .done (i, s')) :
    l.whileTrue clock kernel restart (fuel + 1) s =
      if i ≠ l.loopCount then .done s' else l.whileTrue clock kernel restart fuel s' := by
  rw [MeasureLoop.whileTrue, hf]
  rfl

/-- The outer loop is left only by a break of the inner one. -/
theorem At.whileTrue (h : l.At clock n s)
    (hw : l.whileTrue clock kernel restart fuel s = .done s') :
    0 < l.loopCount ∧ ∃ m ≥ n, l.Stopped clock m s' := by
  induction fuel generalizing n s with
  | zero => cases hw
  | succ fuel ih =>
    obtain ⟨⟨i, t⟩, hf, -⟩ := Run.bind_eq_done.1 hw
    rw [whileTrue_succ hf] at hw
    rcases (h.rewind _).forLoop hf with ⟨-, hlt, m, hm, hstop⟩ | ⟨hi, hat⟩
    · rw [if_pos (by omega)] at hw
      cases hw
      exact ⟨by omega, m, hm, hstop⟩
    · rw [if_neg (by omega)] at hw
      obtain ⟨hpos, m, hm, hstop⟩ := ih hat hw
      exact ⟨hpos, m, by omega, hstop⟩

theorem At.ends (h : l.At clock n s) (hk : Returning kernel) (hpos : 0 < l.loopCount)
    (hm : n ≤ m) (hb : l.BreaksAt clock m) :
    ∃ fuel s', l.whileTrue clock kernel restart fuel s = .done s' := by
  induction hd : m - n using Nat.strongRecOn generalizing n s with
  | ind d ih =>
    obtain ⟨⟨i, t⟩, hf⟩ := forLoop_returns l clock hk l.loopCount 0
      { s with cursor := restart s.cursor }
    rcases (h.rewind _).forLoop hf with ⟨-, hlt, -⟩ | ⟨hi, hat⟩
    · exact ⟨1, t, by rw [whileTrue_succ hf, if_pos (by omega)]⟩
    · have hle : n + l.loopCount ≤ m := by
        by_contra hgt
        exact hat.before m (by omega) hb
      obtain ⟨fuel, s', hw⟩ := ih (m - (n + l.loopCount)) (by omega) hat hle rfl
      exact ⟨fuel + 1, s', by rw [whileTrue_succ hf, if_neg (by omega), hw]⟩

/-- The loops stop at the first call of the kernel that breaks them. -/
theorem run_stopped (h : l.run clock kernel restart fuel cursor = .done s) :
    0 < l.loopCount ∧ ∃ n, l.Stopped clock n s := by
  obtain ⟨hpos, n, -, hstop⟩ := (At.start l clock cursor).whileTrue h
  exact ⟨hpos, n, hstop⟩

/-- The loops end exactly if some trip is made and some call of the kernel breaks them. -/
theorem run_ends_iff (hk : Returning kernel) :
    (∃ fuel s, l.run clock kernel restart fuel cursor = .done s) ↔
      0 < l.loopCount ∧ ∃ n, l.BreaksAt clock n := by
  constructor
  · rintro ⟨fuel, s, h⟩
    obtain ⟨hpos, n, hstop⟩ := run_stopped h
    exact ⟨hpos, n, hstop.breaks⟩
  · rintro ⟨hpos, n, hb⟩
    exact (At.start l clock cursor).ends hk hpos (Nat.zero_le n) hb

theorem checkpoint_cursor (now : Int) (s : LoopState σ) :
    (l.checkpoint now s).2.cursor = s.cursor := by
  rw [checkpoint]
  split
  · rfl
  · rfl

theorem checkpoint_calls (now : Int) (s : LoopState σ) :
    (l.checkpoint now s).2.calls = s.calls := by
  rw [checkpoint]
  split
  · rfl
  · rfl

/-- What a call of the kernel preserves: `J n i` after `n` calls, `i` of them in this pass. -/
theorem trip_invariant {J : Nat → Nat → σ → Prop}
    (h : Run.Safe (J (s.calls + 1) (i + 1)) (kernel i s.cursor)) :
    Run.Safe (fun p => J p.2.calls (i + 1) p.2.cursor) (l.trip clock kernel i s) := by
  apply h.bind
  intro cursor hc
  apply Run.Safe.done
  split
  · rw [checkpoint_cursor, checkpoint_calls]
    exact hc
  · exact hc

theorem forLoop_invariant {J : Nat → Nat → σ → Prop}
    (hk : ∀ n, ∀ i < l.loopCount, ∀ c, J n i c → Run.Safe (J (n + 1) (i + 1)) (kernel i c))
    (hi : i + trips = l.loopCount) (h : J s.calls i s.cursor) :
    Run.Safe (fun p => (∃ j ≤ l.loopCount, J p.2.calls j p.2.cursor) ∧
      (p.1 = l.loopCount → J p.2.calls l.loopCount p.2.cursor))
      (l.forLoop clock kernel trips i s) := by
  induction trips generalizing i s with
  | zero =>
    have hend : J s.calls l.loopCount s.cursor := by rwa [← hi]
    exact .done ⟨⟨_, Nat.le_refl _, hend⟩, fun _ => hend⟩
  | succ trips ih =>
    apply (trip_invariant (hk s.calls i (by omega) s.cursor h)).bind
    rintro ⟨broke, t⟩ ht
    cases broke with
    | true => exact .done ⟨⟨i + 1, by omega, ht⟩, fun he => absurd he (by omega)⟩
    | false => exact ih (by omega) ht

/-- What each call of the kernel and each restart preserve, the loops preserve. -/
theorem run_invariant {J : Nat → Nat → σ → Prop} (hstart : J 0 0 (restart cursor))
    (hrestart : ∀ n c, J n l.loopCount c → J n 0 (restart c))
    (hk : ∀ n, ∀ i < l.loopCount, ∀ c, J n i c → Run.Safe (J (n + 1) (i + 1)) (kernel i c)) :
    Run.Safe (fun s => ∃ i ≤ l.loopCount, J s.calls i s.cursor)
      (l.run clock kernel restart fuel cursor) := by
  have hwhile : ∀ s : LoopState σ, J s.calls 0 (restart s.cursor) →
      Run.Safe (fun s => ∃ i ≤ l.loopCount, J s.calls i s.cursor)
        (l.whileTrue clock kernel restart fuel s) := by
    induction fuel with
    | zero => exact fun _ _ => .running
    | succ fuel ih =>
      intro s hs
      apply (forLoop_invariant hk (Nat.zero_add _) hs).bind
      rintro ⟨i, t⟩ ⟨hany, hend⟩
      change Run.Safe _ (if i ≠ l.loopCount then .done t else _)
      split
      · exact .done hany
      · next hall => exact ih t (hrestart _ _ (hend (not_not.1 hall)))
  exact hwhile _ hstart

theorem run_safe {I : Nat → σ → Prop} (hrestart : ∀ c, I 0 (restart c))
    (hk : ∀ i < l.loopCount, ∀ c, I i c → Run.Safe (I (i + 1)) (kernel i c)) (cursor : σ) :
    Run.Safe (fun _ => True) (l.run clock kernel restart fuel cursor) :=
  (run_invariant (J := fun _ => I) (hrestart cursor) (fun _ c _ => hrestart c)
    fun _ => hk).mono fun _ _ => trivial

theorem run_congr {kernel' : Nat → σ → Run ε σ} (h : ∀ i < l.loopCount, kernel i = kernel' i)
    (fuel : Nat) (cursor : σ) :
    l.run clock kernel restart fuel cursor = l.run clock kernel' restart fuel cursor := by
  have hfor : ∀ trips i (s : LoopState σ), i + trips = l.loopCount →
      l.forLoop clock kernel trips i s = l.forLoop clock kernel' trips i s := by
    intro trips
    induction trips with
    | zero => exact fun _ _ _ => rfl
    | succ trips ih =>
      intro i s hi
      rw [MeasureLoop.forLoop, MeasureLoop.forLoop, MeasureLoop.trip, MeasureLoop.trip,
        h i (by omega)]
      apply Run.bind_congr rfl
      rintro ⟨broke, t⟩
      cases broke with
      | true => rfl
      | false => exact ih (i + 1) t (by omega)
  have hwhile : ∀ s : LoopState σ,
      l.whileTrue clock kernel restart fuel s = l.whileTrue clock kernel' restart fuel s := by
    induction fuel with
    | zero => exact fun _ => rfl
    | succ fuel ih =>
      intro s
      rw [MeasureLoop.whileTrue, MeasureLoop.whileTrue, hfor _ _ _ (Nat.zero_add _)]
      apply Run.bind_congr rfl
      rintro ⟨i, t⟩
      dsimp only
      split
      · rfl
      · exact ih t
  exact hwhile _

section Map

variable {f : σ → τ} {kernel' : Nat → τ → Run ε τ} {restart' : τ → τ}

theorem checkpoint_map (now : Int) (s : LoopState σ) :
    l.checkpoint now (s.map f) = ((l.checkpoint now s).1, (l.checkpoint now s).2.map f) := by
  simp only [checkpoint]
  by_cases hreach : (s.timer.endTimer now).elapsedTimeNs ≥ l.targetDurationNs
  · rw [if_pos hreach]
    exact if_pos hreach
  · rw [if_neg hreach]
    exact if_neg hreach

theorem trip_map (hk : ∀ i c, (kernel i c >>= fun c => .done (f c)) = kernel' i (f c)) (i : Nat)
    (s : LoopState σ) : (l.trip clock kernel i s >>= fun p => .done (p.1, p.2.map f)) =
      l.trip clock kernel' i (s.map f) := by
  rw [MeasureLoop.trip, MeasureLoop.trip, show (s.map f).cursor = f s.cursor from rfl, ← hk,
    Run.bind_assoc, Run.bind_assoc]
  apply Run.bind_congr rfl
  intro c
  simp only [Run.pure_eq, Run.done_bind]
  by_cases hpass : u64 (s.finished + l.loopUnit) > s.nextChkpt
  · rw [if_pos hpass, ← checkpoint_map]
    exact (congrArg Run.done (if_pos hpass)).symm
  · rw [if_neg hpass]
    exact (congrArg Run.done (if_neg hpass)).symm

theorem forLoop_map (l : MeasureLoop) (clock : Nat → Int)
    (hk : ∀ i c, (kernel i c >>= fun c => .done (f c)) = kernel' i (f c))
    (trips i : Nat) (s : LoopState σ) :
    (l.forLoop clock kernel trips i s >>= fun p => .done (p.1, p.2.map f)) =
      l.forLoop clock kernel' trips i (s.map f) := by
  induction trips generalizing i s with
  | zero => rfl
  | succ trips ih =>
    rw [MeasureLoop.forLoop, MeasureLoop.forLoop, ← trip_map hk, Run.bind_assoc, Run.bind_assoc]
    apply Run.bind_congr rfl
    rintro ⟨broke, t⟩
    cases broke with
    | true => rfl
    | false => exact ih (i + 1) t

theorem run_map (hk : ∀ i c, (kernel i c >>= fun c => .done (f c)) = kernel' i (f c))
    (hr : ∀ c, f (restart c) = restart' (f c)) (cursor : σ) :
    (l.run clock kernel restart fuel cursor >>= fun s => .done (s.map f)) =
      l.run clock kernel' restart' fuel (f cursor) := by
  have hwhile : ∀ s : LoopState σ,
      (l.whileTrue clock kernel restart fuel s >>= fun s => .done (s.map f)) =
        l.whileTrue clock kernel' restart' fuel (s.map f) := by
    induction fuel with
    | zero => exact fun _ => rfl
    | succ fuel ih =>
      intro s
      have hfor := forLoop_map l clock hk l.loopCount 0
        { s with cursor := restart s.cursor }
      rw [MeasureLoop.whileTrue, MeasureLoop.whileTrue]
      simp only [LoopState.map, hr] at hfor ⊢
      rw [← hfor, Run.bind_assoc, Run.bind_assoc]
      apply Run.bind_congr rfl
      rintro ⟨i, t⟩
      simp only [Run.done_bind, Run.pure_eq]
      split
      · rfl
      · exact ih t
  exact hwhile _

end Map

theorem run_fault (hpos : 0 < l.loopCount) (h : kernel 0 (restart cursor) = .fault e) :
    l.run clock kernel restart (fuel + 1) cursor = .fault e := by
  obtain ⟨n, hn⟩ : ∃ n, l.loopCount = n + 1 := ⟨l.loopCount - 1, by omega⟩
  have hfor : l.forLoop clock kernel l.loopCount 0 (l.start clock (restart cursor)) = .fault e := by
    rw [hn, MeasureLoop.forLoop, MeasureLoop.trip]
    change (kernel 0 (restart cursor) >>= _) >>= _ = _
    rw [h]
    rfl
  rw [MeasureLoop.run, MeasureLoop.whileTrue]
  change l.forLoop clock kernel l.loopCount 0 (l.start clock (restart cursor)) >>= _ = _
  rw [hfor]
  rfl

end MeasureLoop

end MmMem

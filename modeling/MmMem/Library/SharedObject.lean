import MmMem.Library.BoundedRun
import Mathlib.Logic.Function.Basic

namespace Prog
set_option autoImplicit true

/-- Code that calls an object it shares: what it comes to, or a call and what it makes of the
answer. -/
inductive Caller (ο : Type) (ρ : ο → Type) (ε α : Type) where
  | ret (x : Run ε α)
  | call (o : ο) (k : ρ o → Caller ο ρ ε α)

/-- What the calls make of the object, and what they answer. -/
abbrev SharedObject (ο : Type) (ρ : ο → Type) (σ : Type) : Type := (o : ο) → σ → ρ o × σ

namespace Caller

variable {ο : Type} {ρ : ο → Type} {obj : SharedObject ο ρ σ}

def bind (m : Caller ο ρ ε α) (f : α → Caller ο ρ ε β) : Caller ο ρ ε β :=
  match m with
  | .ret (.done a) => f a
  | .ret (.fault e) => .ret (.fault e)
  | .ret .running => .ret .running
  | .call o k => .call o fun answer => bind (k answer) f

instance : Monad (Caller ο ρ ε) where
  pure a := .ret (.done a)
  bind := Caller.bind

instance : MonadLift (Run ε) (Caller ο ρ ε) where
  monadLift := .ret

/-- A call whose answer is returned. -/
def ask (o : ο) : Caller ο ρ ε (ρ o) := .call o fun answer => .ret (.done answer)

/-- A `for` loop counting down from `i` and stopping before index zero. -/
def loopDown (f : Nat → τ → Caller ο ρ ε τ) : Nat → τ → Caller ο ρ ε τ
  | 0, t => .ret (.done t)
  | i + 1, t => f (i + 1) t >>= loopDown f i

/-- The code with the object to itself: what it comes to, with the object it leaves. -/
def alone (obj : SharedObject ο ρ σ) : Caller ο ρ ε α → σ → Run ε (α × σ)
  | .ret x, s => x >>= fun a => .done (a, s)
  | .call o k, s => alone obj (k (obj o s).1) (obj o s).2

/-- What the code comes to with the object to itself. -/
def outcome (obj : SharedObject ο ρ σ) (m : Caller ο ρ ε α) (s : σ) : Run ε α :=
  m.alone obj s >>= fun p => .done p.1

theorem alone_pure (a : α) (s : σ) :
    (pure a : Caller ο ρ ε α).alone obj s = .done (a, s) := rfl

theorem alone_lift (x : Run ε α) (s : σ) :
    (liftM x : Caller ο ρ ε α).alone obj s = x >>= fun a => .done (a, s) := rfl

theorem alone_bind (m : Caller ο ρ ε α) (f : α → Caller ο ρ ε β) (s : σ) :
    (m >>= f).alone obj s = m.alone obj s >>= fun p => (f p.1).alone obj p.2 := by
  induction m generalizing s with
  | ret x =>
    cases x with
    | done a => rfl
    | fault e => rfl
    | running => rfl
  | call o k ih => exact ih (obj o s).1 (obj o s).2

theorem lift_bind (x : Run ε α) (f : α → Run ε β) :
    (liftM x >>= fun a => liftM (f a) : Caller ο ρ ε β) = liftM (x >>= f) := by
  cases x with
  | done a => rfl
  | fault e => rfl
  | running => rfl

/-- A loop of calls and the loop that has the object among its variables. -/
theorem loopDown_alone {f : Nat → τ → Caller ο ρ ε τ} {g : Nat → υ → Run ε υ} (view : υ → τ × σ)
    (h : ∀ i u, (f i (view u).1).alone obj (view u).2 = g i u >>= fun u' => .done (view u'))
    (i : Nat) (u : υ) : (loopDown f i (view u).1).alone obj (view u).2 =
      Run.loopDown g i u >>= fun u' => .done (view u') := by
  induction i generalizing u with
  | zero => rfl
  | succ i ih =>
    rw [loopDown, alone_bind, h, Run.loopDown, Run.bind_assoc, Run.bind_assoc]
    exact Run.bind_congr rfl ih

theorem outcome_bind (m : Caller ο ρ ε α) (f : α → Caller ο ρ ε β) (s : σ) :
    (m >>= f).outcome obj s = m.alone obj s >>= fun p => (f p.1).outcome obj p.2 := by
  rw [outcome, alone_bind, Run.bind_assoc]
  rfl

theorem outcome_ret (x : Run ε α) (s : σ) : (ret x : Caller ο ρ ε α).outcome obj s = x := by
  cases x with
  | done a => rfl
  | fault e => rfl
  | running => rfl

theorem outcome_bind_lift (m : Caller ο ρ ε α) (f : α → Run ε β) (s : σ) :
    (m >>= fun a => liftM (f a)).outcome obj s = m.outcome obj s >>= f := by
  rw [outcome_bind, outcome, Run.bind_assoc]
  exact Run.bind_congr rfl fun p => outcome_ret (f p.1) p.2

end Caller

/-- Callers of one object. Beside the object stands the one each caller would have left had it
been alone; nothing reads it. -/
structure Sharing (κ ο : Type) (ρ : ο → Type) (σ ε α : Type) where
  object : σ
  own : κ → σ
  callers : κ → Caller ο ρ ε α

namespace Sharing

variable {ο : Type} {ρ : ο → Type} {obj : SharedObject ο ρ σ}

/-- The start: nobody has made a call yet. -/
def start (s : σ) (callers : κ → Caller ο ρ ε α) : Sharing κ ο ρ σ ε α := ⟨s, fun _ => s, callers⟩

variable [DecidableEq κ] {s : Sharing κ ο ρ σ ε α} {v w : κ}

/-- The next call of a caller, if it has one. -/
def step (obj : SharedObject ο ρ σ) (s : Sharing κ ο ρ σ ε α) (w : κ) : Sharing κ ο ρ σ ε α :=
  match s.callers w with
  | .ret _ => s
  | .call o k =>
    { object := (obj o s.object).2
      own := Function.update s.own w (obj o (s.own w)).2
      callers := Function.update s.callers w (k (obj o s.object).1) }

/-- The calls in the order of a schedule. -/
def run (obj : SharedObject ο ρ σ) (s : Sharing κ ο ρ σ ε α) (schedule : List κ) :
    Sharing κ ο ρ σ ε α := schedule.foldl (step obj) s

/-- All steps of the schedule are taken in states that meet `P`. -/
def Along (obj : SharedObject ο ρ σ) (P : Sharing κ ο ρ σ ε α → κ → Prop)
    (s : Sharing κ ο ρ σ ε α) : List κ → Prop
  | [] => True
  | w :: schedule => P s w ∧ Along obj P (s.step obj w) schedule

/-- The next call of the caller is answered as if it were alone. -/
def AnsweredAlone (obj : SharedObject ο ρ σ) (s : Sharing κ ο ρ σ ε α) (w : κ) : Prop :=
  ∀ o k, s.callers w = .call o k → (obj o s.object).1 = (obj o (s.own w)).1

/-- What caller `v` would come to had it been alone so far and were alone from now on. -/
def fate (obj : SharedObject ο ρ σ) (s : Sharing κ ο ρ σ ε α) (v : κ) : Run ε (α × σ) :=
  (s.callers v).alone obj (s.own v)

theorem step_fate (h : w = v → s.AnsweredAlone obj v) :
    (s.step obj w).fate obj v = s.fate obj v := by
  rw [step]
  split
  · rfl
  · next o k hcall =>
    by_cases hv : w = v
    · subst hv
      have hanswer := h rfl o k hcall
      simp only [fate, Function.update_self, hcall, hanswer]
      rfl
    · simp only [fate, Function.update_of_ne (Ne.symm hv)]

/-- A caller always answered as if it were alone keeps its fate, whatever the others do. -/
theorem run_fate {schedule : List κ}
    (h : s.Along obj (fun s w => w = v → s.AnsweredAlone obj v) schedule) :
    (s.run obj schedule).fate obj v = s.fate obj v := by
  induction schedule generalizing s with
  | nil => rfl
  | cons w schedule ih => exact (ih h.2).trans (step_fate h.1)

theorem run_outcome {schedule : List κ} {callers : κ → Caller ο ρ ε α} {t : σ}
    (h : (start t callers).Along obj (fun s w => w = v → s.AnsweredAlone obj v) schedule)
    (hret : ((start t callers).run obj schedule).callers v = .ret x) :
    x = (callers v).outcome obj t := by
  have hfate : _ = (callers v).alone obj t := run_fate h
  rw [fate, hret] at hfate
  rw [Caller.outcome, ← hfate]
  exact (Caller.outcome_ret x _).symm

theorem Along.mono {P Q : Sharing κ ο ρ σ ε α → κ → Prop} {schedule : List κ}
    (h : s.Along obj P schedule) (hPQ : ∀ s w, P s w → Q s w) : s.Along obj Q schedule := by
  induction schedule generalizing s with
  | nil => trivial
  | cons w schedule ih => exact ⟨hPQ s w h.1, ih h.2⟩

theorem along_append {P : Sharing κ ο ρ σ ε α → κ → Prop} {xs ys : List κ} :
    s.Along obj P (xs ++ ys) ↔ s.Along obj P xs ∧ (s.run obj xs).Along obj P ys := by
  induction xs generalizing s with
  | nil => exact (and_iff_right trivial).symm
  | cons w xs ih => exact (and_congr_right fun _ => ih).trans and_assoc.symm

theorem step_callers_ne (h : v ≠ w) : (s.step obj w).callers v = s.callers v := by
  rw [step]
  split
  · rfl
  · exact Function.update_of_ne h ..

/-- The calls of the others leave a caller's code as it is. -/
theorem run_callers_not_mem {schedule : List κ} (h : v ∉ schedule) :
    (s.run obj schedule).callers v = s.callers v := by
  induction schedule generalizing s with
  | nil => rfl
  | cons w schedule ih =>
    obtain ⟨hw, htail⟩ := not_or.1 (mt List.mem_cons.2 h)
    exact (ih htail).trans (step_callers_ne hw)

end Sharing

end Prog

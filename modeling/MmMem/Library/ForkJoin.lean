import MmMem.Library.Confinement

namespace Prog
set_option autoImplicit true

/-- What a caller has come to so far. -/
def Caller.soFar : Caller ο ρ ε α → Run ε α
  | .ret x => x
  | .call _ _ => .running

def Caller.returned : Caller ο ρ ε α → Bool
  | .ret _ => true
  | .call _ _ => false

/-- A main thread that starts threads, waits for all of them, and goes on with what they return. -/
inductive ForkJoin (ο : Type) (ρ : ο → Type) (ε α β : Type) where
  | ret (x : Run ε β)
  | fork (threads : List (Caller ο ρ ε α)) (k : List α → ForkJoin ο ρ ε α β)

namespace ForkJoin

variable {ο : Type} {ρ : ο → Type} {obj : SharedObject ο ρ σ}

def bind (m : ForkJoin ο ρ ε α β) (f : β → ForkJoin ο ρ ε α γ) : ForkJoin ο ρ ε α γ :=
  match m with
  | .ret (.done b) => f b
  | .ret (.fault e) => .ret (.fault e)
  | .ret .running => .ret .running
  | .fork threads k => .fork threads fun as => bind (k as) f

instance : Monad (ForkJoin ο ρ ε α) where
  pure b := .ret (.done b)
  bind := ForkJoin.bind

instance : MonadLift (Run ε) (ForkJoin ο ρ ε α) where
  monadLift := .ret

/-- The threads side by side, and what they all return. -/
def all (threads : List (Caller ο ρ ε α)) : ForkJoin ο ρ ε α (List α) :=
  .fork threads fun as => .ret (.done as)

/-- The threads have returned this, and each has left its part of the object as described. -/
def Joined (D : Division Nat obj) (T : Nat → Run ε α → σ → Prop) (xs : List (Run ε α)) (s : σ) :
    Prop := ∀ (i : Nat) (x : Run ε α), xs[i]? = some x → ∃ own, D.Alike i s own ∧ T i x own

/-- Whatever the order of their calls, the threads keep to their parts, and this is how the main
thread ends. -/
def Ends (D : Division Nat obj) (E : Run ε β → σ → Prop) : ForkJoin ο ρ ε α β → σ → Prop
  | .ret x, s => E x s
  | .fork threads k, s => ∃ T : Nat → Run ε α → σ → Prop,
      (∀ (i : Nat) (t : Caller ο ρ ε α), threads[i]? = some t → t.Ends obj (D.may i) (T i) s) ∧
      ∀ xs s', xs.length = threads.length → Joined D T xs s' →
        match Run.all xs with
        | .done as => Ends D E (k as) s'
        | .fault e => E (.fault e) s'
        | .running => E .running s'

variable {D : Division Nat obj}

theorem Ends.mono {E E' : Run ε β → σ → Prop} {m : ForkJoin ο ρ ε α β} (h : m.Ends D E s)
    (hE : ∀ x s, E x s → E' x s) : m.Ends D E' s := by
  induction m generalizing s with
  | ret x => exact hE x s h
  | fork threads k ih =>
    obtain ⟨T, hT, hk⟩ := h
    refine ⟨T, hT, fun xs s' hlen hjoined => ?_⟩
    have hend := hk xs s' hlen hjoined
    cases hall : Run.all xs with
    | done as =>
      rw [hall] at hend
      exact ih as hend
    | fault e =>
      rw [hall] at hend
      exact hE _ _ hend
    | running =>
      rw [hall] at hend
      exact hE _ _ hend

theorem Ends.bind {E : Run ε β → σ → Prop} {E' : Run ε γ → σ → Prop} {m : ForkJoin ο ρ ε α β}
    {f : β → ForkJoin ο ρ ε α γ} (h : m.Ends D E s)
    (hdone : ∀ b s, E (.done b) s → (f b).Ends D E' s)
    (hfault : ∀ e s, E (.fault e) s → E' (.fault e) s)
    (hrunning : ∀ s, E .running s → E' .running s) : (m >>= f).Ends D E' s := by
  induction m generalizing s with
  | ret x =>
    cases x with
    | done b => exact hdone b s h
    | fault e => exact hfault e s h
    | running => exact hrunning s h
  | fork threads k ih =>
    obtain ⟨T, hT, hk⟩ := h
    refine ⟨T, hT, fun xs s' hlen hjoined => ?_⟩
    have hend := hk xs s' hlen hjoined
    cases hall : Run.all xs with
    | done as =>
      rw [hall] at hend
      exact ih as hend
    | fault e =>
      rw [hall] at hend
      exact hfault e s' hend
    | running =>
      rw [hall] at hend
      exact hrunning s' hend

/-- Whatever the order of the calls, the program does what a run does, unless that faults. -/
structure Refines (D : Division Nat obj) (R : β → σ → γ → Prop) (m : ForkJoin ο ρ ε α β) (s : σ)
    (x : Run ε' γ) : Prop where
  ends : (∀ e, x ≠ .fault e) → m.Ends D (fun y s => y.Matches (fun b c => R b s c) x) s

theorem Refines.mono {R R' : β → σ → γ → Prop} {m : ForkJoin ο ρ ε α β} {x : Run ε' γ}
    (h : m.Refines D R s x) (hR : ∀ b s c, R b s c → R' b s c) : m.Refines D R' s x :=
  ⟨fun hx => (h.ends hx).mono fun _ s hy => hy.mono fun b c => hR b s c⟩

theorem Refines.done {R : β → σ → γ → Prop} (h : R b s c) :
    (pure b : ForkJoin ο ρ ε α β).Refines D R s (.done c : Run ε' γ) :=
  ⟨fun _ => Run.Matches.done h⟩

theorem Refines.lift {R : β → σ → β → Prop} (x : Run ε β) (h : ∀ b, x = .done b → R b s b) :
    (liftM x : ForkJoin ο ρ ε α β).Refines D R s x := by
  refine ⟨fun hx => ?_⟩
  cases x with
  | done b => exact Run.Matches.done (h b rfl)
  | fault e => exact absurd rfl (hx e)
  | running => exact Run.Matches.running

theorem Refines.bind {R : β → σ → γ → Prop} {R' : β' → σ → γ' → Prop} {m : ForkJoin ο ρ ε α β}
    {f : β → ForkJoin ο ρ ε α β'} {x : Run ε' γ} {g : γ → Run ε' γ'} (hm : m.Refines D R s x)
    (hf : ∀ b s c, R b s c → (f b).Refines D R' s (g c)) :
    (m >>= f).Refines D R' s (x >>= g) := by
  refine ⟨fun hx => ?_⟩
  cases x with
  | done c =>
    apply (hm.ends nofun).bind
    · rintro b s (h | _)
      exact (hf b s c h).ends hx
    · exact fun e s h => nomatch h
    · exact fun s h => nomatch h
  | fault e => exact absurd rfl (hx e)
  | running =>
    apply (hm.ends nofun).bind
    · exact fun b s h => nomatch h
    · exact fun e s h => nomatch h
    · exact fun s h => .running

/-- What the main thread does by itself is done on both sides. -/
theorem Refines.lift_bind {R : β → σ → γ → Prop} {x : Run ε δ} {f : δ → ForkJoin ο ρ ε α β}
    {g : δ → Run ε γ} (h : ∀ d, x = .done d → (f d).Refines D R s (g d)) :
    (liftM x >>= f : ForkJoin ο ρ ε α β).Refines D R s (x >>= g) := by
  refine ⟨fun hx => ?_⟩
  cases x with
  | done d => exact (h d rfl).ends hx
  | fault e => exact absurd rfl (hx e)
  | running => exact Run.Matches.running

end ForkJoin

theorem Run.Matches.beside {R : α → β → Prop} {R' : γ → δ → Prop} {x : Run ε α} {y : Run ε' β}
    {x' : Run ε γ} {y' : Run ε' δ} (h : x.Matches R y) (h' : x'.Matches R' y') :
    (x.beside x').Matches (fun p q => R p.1 q.1 ∧ R' p.2 q.2) (y.beside y') := by
  cases h with
  | done h =>
    cases h' with
    | done h' => exact .done ⟨h, h'⟩
    | running => exact .running
  | running =>
    cases h' with
    | done h' => exact .running
    | running => exact .running

theorem Run.Matches.bind {R : α → β → Prop} {R' : γ → δ → Prop} {x : Run ε α} {y : Run ε' β}
    {f : α → Run ε γ} {g : β → Run ε' δ} (h : x.Matches R y)
    (hf : ∀ a b, R a b → (f a).Matches R' (g b)) : (x >>= f).Matches R' (y >>= g) := by
  cases h with
  | done h => exact hf _ _ h
  | running => exact .running

theorem Run.Matches.all {R : Nat → α → β → Prop} {xs : List (Run ε α)} {ys : List (Run ε' β)}
    (hlen : xs.length = ys.length)
    (h : ∀ (i : Nat) (x : Run ε α), xs[i]? = some x → ∃ y, ys[i]? = some y ∧ x.Matches (R i) y) :
    (Run.all xs).Matches (fun as bs => as.length = xs.length ∧ bs.length = xs.length ∧
      ∀ (i : Nat) (a : α), as[i]? = some a → ∃ b, bs[i]? = some b ∧ R i a b) (Run.all ys) := by
  induction xs generalizing ys R with
  | nil =>
    cases List.length_eq_zero_iff.1 hlen.symm
    exact .done ⟨rfl, rfl, fun i a ha => by cases ha⟩
  | cons x xs ih =>
    obtain _ | ⟨y, ys⟩ := ys
    · cases hlen
    · obtain ⟨y', hy, hxy⟩ := h 0 x rfl
      cases hy
      have hrest := ih (R := fun i => R (i + 1)) (Nat.succ.inj hlen)
        fun i x' hx' => h (i + 1) x' hx'
      apply (hxy.beside hrest).bind
      rintro p q ⟨hhead, hlen', hlen'', htail⟩
      refine .done ⟨congrArg Nat.succ hlen', congrArg Nat.succ hlen'', fun i a ha => ?_⟩
      cases i with
      | zero =>
        cases ha
        exact ⟨q.1, rfl, hhead⟩
      | succ i => exact htail i a ha

theorem Run.all_not_fault {xs : List (Run ε α)} (h : ∀ e, Run.all xs ≠ .fault e) (hx : x ∈ xs) :
    ∀ e, x ≠ .fault e := by
  rintro e rfl
  obtain ⟨e', he⟩ := Run.all_fault hx
  exact h e' he

namespace ForkJoin

variable {ο : Type} {ρ : ο → Type} {obj : SharedObject ο ρ σ} {D : Division Nat obj}

/-- Threads that refine runs, each within its own part, refine these runs side by side. -/
theorem Refines.all (R : Nat → α → σ → β → Prop) {threads : List (Caller ο ρ ε α)}
    {xs : List (Run ε' β)} (hlen : threads.length = xs.length)
    (h : ∀ (i : Nat) (t : Caller ο ρ ε α), threads[i]? = some t →
      ∃ x, xs[i]? = some x ∧ t.Refines obj (D.may i) (R i) s x) :
    (ForkJoin.all threads).Refines D (fun as s' bs => as.length = xs.length ∧
      bs.length = xs.length ∧ ∀ (i : Nat) (a : α), as[i]? = some a →
        ∃ b, bs[i]? = some b ∧ ∃ own, D.Alike i s' own ∧ R i a own b) s (Run.all xs) := by
  refine ⟨fun hx => ?_⟩
  refine ⟨fun i y own => ∀ x, xs[i]? = some x → y.Matches (fun a b => R i a own b) x, ?_, ?_⟩
  · intro i t ht
    obtain ⟨x, hi, href⟩ := h i t ht
    refine (href.ends (Run.all_not_fault hx (List.mem_of_getElem? hi))).mono fun y own hy x' hx' => ?_
    cases hi.symm.trans hx'
    exact hy
  · intro ys s' hlen' hjoined
    have hmatches := Run.Matches.all (R := fun i a b => ∃ own, D.Alike i s' own ∧ R i a own b)
      (hlen'.trans hlen) fun i y hy => by
        obtain ⟨own, halike, hown⟩ := hjoined i y hy
        have hi : i < xs.length := by
          rw [← hlen, ← hlen']
          exact (List.getElem?_eq_some_iff.1 hy).1
        have hget := List.getElem?_eq_getElem hi
        exact ⟨_, hget, (hown _ hget).mono fun a b hR => ⟨own, halike, hR⟩⟩
    rw [hlen'.trans hlen] at hmatches
    cases hall : Run.all ys with
    | done as =>
      rw [hall] at hmatches
      exact hmatches
    | fault e =>
      rw [hall] at hmatches
      exact hmatches
    | running =>
      rw [hall] at hmatches
      exact hmatches

theorem ends_joined {E : Run ε β → σ → Prop} {k : List α → ForkJoin ο ρ ε α β}
    (h : match Run.all xs with
      | .done as => (k as).Ends D E s
      | .fault e => E (.fault e) s
      | .running => E .running s) : ((.ret (Run.all xs) : ForkJoin ο ρ ε α _).bind k).Ends D E s := by
  cases hall : Run.all xs with
  | done as =>
    rw [hall] at h
    exact h
  | fault e =>
    rw [hall] at h
    exact h
  | running =>
    rw [hall] at h
    exact h

end ForkJoin

/-- A process: its main thread is done, or waits for threads that share the object. -/
inductive Process (ο : Type) (ρ : ο → Type) (σ ε α β : Type) where
  | done (x : Run ε β)
  | waiting (n : Nat) (threads : Sharing Nat ο ρ σ ε α) (k : List α → ForkJoin ο ρ ε α β)

/-- What happens next: a call of a thread, or the main thread looks whether all have returned. -/
inductive Turn where
  | thread (i : Nat)
  | join
  deriving Repr, DecidableEq

namespace Process

variable {ο : Type} {ρ : ο → Type} {obj : SharedObject ο ρ σ} {D : Division Nat obj}

def start : ForkJoin ο ρ ε α β → σ → Process ο ρ σ ε α β
  | .ret x, _ => .done x
  | .fork threads k, s =>
    .waiting threads.length (.start s fun i => threads.getD i (.ret .running)) k

def step (obj : SharedObject ο ρ σ) : Process ο ρ σ ε α β → Turn → Process ο ρ σ ε α β
  | .done x, _ => .done x
  | .waiting n s k, .thread i => .waiting n (s.step obj i) k
  | .waiting n s k, .join =>
    if (List.range n).all fun i => (s.callers i).returned then
      .start ((.ret (Run.all ((List.range n).map fun i => (s.callers i).soFar))
        : ForkJoin ο ρ ε α _).bind k) s.object
    else .waiting n s k

def run (obj : SharedObject ο ρ σ) (p : Process ο ρ σ ε α β) (turns : List Turn) :
    Process ο ρ σ ε α β := turns.foldl (step obj) p

/-- No thread has left its part, and the process is on its way to this end. -/
def Kept (D : Division Nat obj) (E : Run ε β → Prop) : Process ο ρ σ ε α β → Prop
  | .done x => E x
  | .waiting n s k => ∃ T, D.Kept T s ∧ ∀ xs s', xs.length = n → ForkJoin.Joined D T xs s' →
      ((.ret (Run.all xs) : ForkJoin ο ρ ε α _).bind k).Ends D (fun x _ => E x) s'

theorem Kept.start {E : Run ε β → Prop} {m : ForkJoin ο ρ ε α β}
    (h : m.Ends D (fun x _ => E x) s) : (Process.start m s).Kept D E := by
  cases m with
  | ret x => exact h
  | fork threads k =>
    obtain ⟨T, hT, hk⟩ := h
    refine ⟨fun i x own => i < threads.length → T i x own, .start D fun i => ?_,
      fun xs s' hlen hjoined => ForkJoin.ends_joined (hk xs s' hlen fun i x hx => ?_)⟩
    · cases hi : threads[i]? with
      | some t =>
        rw [List.getD_eq_getElem?_getD, hi]
        exact (hT i t hi).mono fun x own hx _ => hx
      | none =>
        rw [List.getD_eq_getElem?_getD, hi]
        exact fun hlt => absurd hlt (Nat.not_lt.2 (List.getElem?_eq_none_iff.1 hi))
    · obtain ⟨own, halike, hown⟩ := hjoined i x hx
      exact ⟨own, halike, hown (hlen ▸ (List.getElem?_eq_some_iff.1 hx).1)⟩

theorem Kept.step {E : Run ε β → Prop} {p : Process ο ρ σ ε α β} (h : p.Kept D E) (turn : Turn) :
    (p.step obj turn).Kept D E := by
  cases p with
  | done x => exact h
  | waiting n s k =>
    obtain ⟨T, hkept, hk⟩ := h
    cases turn with
    | thread i => exact ⟨T, hkept.step i, hk⟩
    | join =>
      rw [Process.step]
      split
      · next hall =>
        apply Kept.start
        apply hk
        · rw [List.length_map, List.length_range]
        · intro i x hx
          rw [List.getElem?_map, Option.map_eq_some_iff] at hx
          obtain ⟨j, hj, rfl⟩ := hx
          obtain ⟨hlt, rfl⟩ := List.getElem?_eq_some_iff.1 hj
          rw [List.getElem_range]
          rw [List.length_range] at hlt
          have hret := List.all_eq_true.1 hall i (List.mem_range.2 hlt)
          cases hcall : s.callers i with
          | ret x => exact hkept.ret hcall
          | call o k =>
            rw [hcall] at hret
            cases hret
      · exact ⟨T, hkept, hk⟩

theorem Kept.run {E : Run ε β → Prop} {p : Process ο ρ σ ε α β} (h : p.Kept D E)
    (turns : List Turn) : (p.run obj turns).Kept D E := by
  induction turns generalizing p with
  | nil => exact h
  | cons turn turns ih => exact ih (h.step turn)

theorem run_append (p : Process ο ρ σ ε α β) (xs ys : List Turn) :
    p.run obj (xs ++ ys) = (p.run obj xs).run obj ys := List.foldl_append

theorem run_threads (n : Nat) (s : Sharing Nat ο ρ σ ε α) (k : List α → ForkJoin ο ρ ε α β)
    (schedule : List Nat) : (waiting n s k).run obj (schedule.map .thread) =
      .waiting n (s.run obj schedule) k := by
  induction schedule generalizing s with
  | nil => rfl
  | cons i schedule ih => exact ih (s.step obj i)

/-- The process can still come to its end. -/
def Finishes (obj : SharedObject ο ρ σ) (p : Process ο ρ σ ε α β) : Prop :=
  ∃ turns x, p.run obj turns = .done x

theorem waiting_finishes {k : List α → ForkJoin ο ρ ε α β}
    (hk : ∀ as s, (start (k as) s).Finishes obj) (n : Nat) (s : Sharing Nat ο ρ σ ε α) :
    (waiting n s k).Finishes obj := by
  obtain ⟨schedule, hreturned⟩ := Sharing.exists_all_returned obj s (List.range n)
  have hall : (List.range n).all (fun i => ((s.run obj schedule).callers i).returned) = true := by
    apply List.all_eq_true.2
    intro i hi
    obtain ⟨x, hx⟩ := hreturned i hi
    rw [hx]
    rfl
  have hjoin : ∀ turns, (waiting n s k).run obj (schedule.map .thread ++ .join :: turns) =
      (start ((.ret (Run.all ((List.range n).map fun i =>
        ((s.run obj schedule).callers i).soFar)) : ForkJoin ο ρ ε α _).bind k)
        (s.run obj schedule).object).run obj turns := by
    intro turns
    rw [run_append, run_threads, run, List.foldl_cons, step, if_pos hall]
    rfl
  cases hxs : Run.all ((List.range n).map fun i => ((s.run obj schedule).callers i).soFar) with
  | done as =>
    obtain ⟨turns, x, hx⟩ := hk as (s.run obj schedule).object
    refine ⟨schedule.map .thread ++ .join :: turns, x, ?_⟩
    rw [hjoin, hxs]
    exact hx
  | fault e =>
    refine ⟨schedule.map .thread ++ [.join], .fault e, ?_⟩
    rw [hjoin, hxs]
    rfl
  | running =>
    refine ⟨schedule.map .thread ++ [.join], .running, ?_⟩
    rw [hjoin, hxs]
    rfl

theorem start_finishes (obj : SharedObject ο ρ σ) (m : ForkJoin ο ρ ε α β) (s : σ) :
    (start m s).Finishes obj := by
  induction m generalizing s with
  | ret x => exact ⟨[], x, rfl⟩
  | fork threads k ih => exact waiting_finishes ih _ _

theorem finishes (obj : SharedObject ο ρ σ) (p : Process ο ρ σ ε α β) : p.Finishes obj := by
  cases p with
  | done x => exact ⟨[], x, rfl⟩
  | waiting n s k => exact waiting_finishes (fun as s => start_finishes obj (k as) s) n s

/-- A program that refines a run keeps to its parts, and comes to what the run comes to. -/
theorem Kept.of_refines {R : β → σ → γ → Prop} {m : ForkJoin ο ρ ε α β} {x : Run ε' γ}
    (h : m.Refines D R s x) (hx : ∀ e, x ≠ .fault e) :
    (Process.start m s).Kept D fun y => y.Matches (fun b c => ∃ s, R b s c) x :=
  .start ((h.ends hx).mono fun _ s hy => hy.mono fun _ _ hR => ⟨s, hR⟩)

/-- The threads at work, if any, are in such a state. -/
def Within (Q : Sharing Nat ο ρ σ ε α → Prop) : Process ο ρ σ ε α β → Prop
  | .done _ => True
  | .waiting _ s _ => Q s

/-- Whatever the turns, the threads stay in such states, and the process ends like this. -/
def Throughout (obj : SharedObject ο ρ σ) (Q : Sharing Nat ο ρ σ ε α → Prop) (E : Run ε β → Prop)
    (p : Process ο ρ σ ε α β) : Prop :=
  ∀ turns, (p.run obj turns).Within Q ∧ ∀ y, p.run obj turns = .done y → E y

variable {Q : Sharing Nat ο ρ σ ε α → Prop}

theorem Throughout.step {E : Run ε β → Prop} {p : Process ο ρ σ ε α β}
    (h : p.Throughout obj Q E) (turn : Turn) : (p.step obj turn).Throughout obj Q E :=
  fun turns => h (turn :: turns)

theorem run_done (x : Run ε β) (turns : List Turn) :
    (done x : Process ο ρ σ ε α β).run obj turns = .done x := by
  induction turns with
  | nil => rfl
  | cons turn turns ih => exact ih

theorem Throughout.done {E : Run ε β → Prop} (h : E x) :
    (done x : Process ο ρ σ ε α β).Throughout obj Q E := by
  intro turns
  rw [run_done]
  exact ⟨trivial, fun y hy => by cases hy; exact h⟩

theorem Throughout.waiting_bind {E : Run ε β → Prop} {E' : Run ε γ → Prop}
    {k : List α → ForkJoin ο ρ ε α β} {k' : List α → ForkJoin ο ρ ε α γ}
    {s : Sharing Nat ο ρ σ ε α} (h : (waiting n s k).Throughout obj Q E)
    (hk : ∀ as o, (Process.start (k as) o).Throughout obj Q E →
      (Process.start (k' as) o).Throughout obj Q E')
    (hfault : ∀ e, E (.fault e) → E' (.fault e)) (hrunning : E .running → E' .running) :
    (waiting n s k').Throughout obj Q E' := by
  intro turns
  induction turns generalizing s with
  | nil => exact ⟨(h []).1, nofun⟩
  | cons turn turns ih =>
    have hstep := h.step turn
    cases turn with
    | thread i => exact ih hstep
    | join =>
      rw [run, List.foldl_cons]
      rw [Process.step] at hstep ⊢
      split at hstep
      · next hall =>
        rw [if_pos hall]
        generalize Run.all ((List.range n).map fun i => (s.callers i).soFar) = xs at hstep ⊢
        cases xs with
        | done as => exact hk as _ hstep turns
        | fault e => exact Throughout.done (hfault e ((hstep []).2 _ rfl)) turns
        | running => exact Throughout.done (hrunning ((hstep []).2 _ rfl)) turns
      · next hall =>
        rw [if_neg hall]
        exact ih h

/-- A program behind another, from whatever state that leaves. -/
theorem Throughout.bind {E : Run ε β → Prop} {E' : Run ε γ → Prop} {m : ForkJoin ο ρ ε α β}
    {f : β → ForkJoin ο ρ ε α γ} (h : (Process.start m s).Throughout obj Q E)
    (hf : ∀ b o, E (.done b) → (Process.start (f b) o).Throughout obj Q E')
    (hfault : ∀ e, E (.fault e) → E' (.fault e)) (hrunning : E .running → E' .running) :
    (Process.start (m >>= f) s).Throughout obj Q E' := by
  induction m generalizing s with
  | ret x =>
    have hx : E x := (h []).2 x rfl
    cases x with
    | done b => exact hf b s hx
    | fault e => exact .done (hfault e hx)
    | running => exact .done (hrunning hx)
  | fork threads k ih => exact h.waiting_bind (fun as o ho => ih as ho) hfault hrunning

end Process

end Prog

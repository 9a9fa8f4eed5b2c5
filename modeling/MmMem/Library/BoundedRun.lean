import Mathlib.Logic.Basic

namespace Prog
set_option autoImplicit true

/-- What a run with a bounded number of loop trips comes to. -/
inductive Run (ε : Type) (α : Type) where
  | done (a : α)
  | fault (e : ε)
  | running
  deriving Repr, DecidableEq

namespace Run

def bind (x : Run ε α) (f : α → Run ε β) : Run ε β :=
  match x with
  | .done a => f a
  | .fault e => .fault e
  | .running => .running

instance : Monad (Run ε) where
  pure := .done
  bind := Run.bind

@[simp] theorem pure_eq (a : α) : (pure a : Run ε α) = .done a := rfl

@[simp] theorem done_bind (a : α) (f : α → Run ε β) : (.done a >>= f) = f a := rfl

@[simp] theorem fault_bind (e : ε) (f : α → Run ε β) : (.fault e >>= f) = .fault e := rfl

@[simp] theorem running_bind (f : α → Run ε β) : ((.running : Run ε α) >>= f) = .running := rfl

theorem done_ne_fault : (.done a : Run ε α) ≠ .fault e := by
  intro h
  cases h

theorem done_ne_running : (.done a : Run ε α) ≠ .running := by
  intro h
  cases h

theorem fault_ne_running : (.fault e : Run ε α) ≠ .running := by
  intro h
  cases h

theorem bind_eq_done {x : Run ε α} {f : α → Run ε β} :
    x >>= f = .done b ↔ ∃ a, x = .done a ∧ f a = .done b := by
  cases x with
  | done a => simp
  | fault e => simp
  | running => simp

theorem bind_eq_fault {x : Run ε α} {f : α → Run ε β} :
    x >>= f = .fault e ↔ x = .fault e ∨ ∃ a, x = .done a ∧ f a = .fault e := by
  cases x with
  | done a => simp
  | fault e => simp
  | running => simp

theorem bind_assoc (x : Run ε α) (f : α → Run ε β) (g : β → Run ε γ) :
    x >>= f >>= g = x >>= fun a => f a >>= g := by
  cases x with
  | done a => rfl
  | fault e => rfl
  | running => rfl

theorem bind_congr {x y : Run ε α} {f g : α → Run ε β} (hx : x = y) (hf : ∀ a, f a = g a) :
    x >>= f = y >>= g := by
  rw [hx, funext hf]

theorem bind_ne_running {x : Run ε α} {f : α → Run ε β} (hx : x ≠ .running)
    (hf : ∀ a, x = .done a → f a ≠ .running) : x >>= f ≠ .running := by
  cases x with
  | done a => exact hf a rfl
  | fault e => exact nofun
  | running => exact absurd rfl hx

/-- The run does not fault, and satisfies the postcondition if it is done. -/
inductive Safe (P : α → Prop) : Run ε α → Prop where
  | done (h : P a) : Safe P (.done a)
  | running : Safe P .running

@[simp] theorem safe_done {P : α → Prop} : Safe P (.done a : Run ε α) ↔ P a :=
  ⟨fun h => by cases h; assumption, .done⟩

@[simp] theorem not_safe_fault {P : α → Prop} : ¬ Safe P (.fault e : Run ε α) := nofun

def isDone : Run ε α → Bool
  | .done _ => true
  | _ => false

theorem exists_done {x : Run ε α} (h : x.isDone = true) : ∃ a, x = .done a := by
  cases x with
  | done a => exact ⟨a, rfl⟩
  | fault e => cases h
  | running => cases h

theorem exists_done_of_not {x : Run ε α} (hr : x ≠ .running) (hf : ∀ e, x ≠ .fault e) :
    ∃ a, x = .done a := by
  cases x with
  | done a => exact ⟨a, rfl⟩
  | fault e => exact absurd rfl (hf e)
  | running => exact absurd rfl hr

theorem Safe.mono {x : Run ε α} (h : Safe P x) (hPQ : ∀ a, P a → Q a) : Safe Q x := by
  cases h with
  | done h => exact .done (hPQ _ h)
  | running => exact .running

theorem Safe.bind {x : Run ε α} {f : α → Run ε β} (h : Safe P x)
    (hf : ∀ a, P a → Safe Q (f a)) : Safe Q (x >>= f) := by
  cases h with
  | done h => exact hf _ h
  | running => exact .running

theorem Safe.of_done {x : Run ε α} (h : Safe P x) (hx : x = .done a) : P a := by
  subst hx
  exact safe_done.1 h

theorem Safe.exists_done {x : Run ε α} (h : Safe P x) (hx : x ≠ .running) :
    ∃ a, x = .done a ∧ P a := by
  cases h with
  | done h => exact ⟨_, rfl, h⟩
  | running => exact absurd rfl hx

theorem Safe.not_fault {x : Run ε α} (h : Safe P x) : x ≠ .fault e := by
  rintro rfl
  exact not_safe_fault h

/-- A `for` loop counting up: `n` trips, the first at index `i`. -/
def loop (f : Nat → σ → Run ε σ) : Nat → Nat → σ → Run ε σ
  | 0, _, s => .done s
  | n + 1, i, s => f i s >>= loop f n (i + 1)

/-- A `for` loop counting down from `i` and stopping before index zero. -/
def loopDown (f : Nat → σ → Run ε σ) : Nat → σ → Run ε σ
  | 0, s => .done s
  | i + 1, s => f (i + 1) s >>= loopDown f i

theorem loop_add (f : Nat → σ → Run ε σ) (m n i : Nat) (s : σ) :
    loop f (m + n) i s = loop f m i s >>= loop f n (i + m) := by
  induction m generalizing i s with
  | zero => rw [Nat.zero_add]; rfl
  | succ m ih =>
    rw [Nat.add_right_comm]
    change f i s >>= loop f (m + n) (i + 1) = (f i s >>= loop f m (i + 1)) >>= _
    rw [bind_assoc]
    apply bind_congr rfl
    intro t
    rw [ih, Nat.add_right_comm, Nat.add_assoc]

theorem loop_succ (f : Nat → σ → Run ε σ) (n i : Nat) (s : σ) :
    loop f (n + 1) i s = loop f n i s >>= f (i + n) := by
  rw [loop_add]
  apply bind_congr rfl
  intro t
  change f (i + n) t >>= _ = _
  cases f (i + n) t with
  | done a => rfl
  | fault e => rfl
  | running => rfl

theorem loop_congr {f g : Nat → σ → Run ε σ} (h : ∀ j < n, ∀ s, f (i + j) s = g (k + j) s) (s : σ) :
    loop f n i s = loop g n k s := by
  induction n with
  | zero => rfl
  | succ n ih =>
    rw [loop_succ, loop_succ]
    exact bind_congr (ih fun j hj => h j (by omega)) (h n (Nat.lt_succ_self n))

theorem loop_mul {f g : Nat → σ → Run ε σ} (h : ∀ i < n, ∀ s, f i s = loop g k (i * k) s) (s : σ) :
    loop f n 0 s = loop g (n * k) 0 s := by
  induction n with
  | zero => rw [Nat.zero_mul]; rfl
  | succ n ih =>
    rw [loop_succ, Nat.succ_mul, loop_add, Nat.zero_add, Nat.zero_add]
    exact bind_congr (ih fun i hi => h i (by omega)) (h n (Nat.lt_succ_self n))

theorem loop_append {f : Nat → List α → Run ε (List α)} {g : Nat → α}
    (h : ∀ i s, f i s = .done (s ++ [g i])) (n i : Nat) (s : List α) :
    loop f n i s = .done (s ++ (List.range' i n).map g) := by
  induction n generalizing i s with
  | zero => exact congrArg Run.done (List.append_nil s).symm
  | succ n ih =>
    rw [loop, h, done_bind, ih, List.range'_succ, List.map_cons, List.append_assoc]
    rfl

theorem loop_ne_running {f : Nat → σ → Run ε σ} (h : ∀ i s, f i s ≠ .running) (n i : Nat) (s : σ) :
    loop f n i s ≠ .running := by
  induction n with
  | zero => exact nofun
  | succ n ih =>
    rw [loop_succ]
    exact bind_ne_running ih fun t _ => h (i + n) t

theorem loopDown_ne_running {f : Nat → σ → Run ε σ} (h : ∀ i s, f i s ≠ .running) (i : Nat)
    (s : σ) :
    loopDown f i s ≠ .running := by
  induction i generalizing s with
  | zero => exact nofun
  | succ i ih => exact bind_ne_running (h (i + 1) s) fun t _ => ih t

theorem Safe.loop {f : Nat → σ → Run ε σ} {I : Nat → σ → Prop} (hs : I i s)
    (hstep : ∀ j s, i ≤ j → j < i + n → I j s → Safe (I (j + 1)) (f j s)) :
    Safe (I (i + n)) (loop f n i s) := by
  induction n generalizing i s with
  | zero => exact .done hs
  | succ n ih =>
    apply (hstep i s (Nat.le_refl i) (by omega) hs).bind
    intro s' hs'
    have hrest := ih hs' fun j t hj hlt => hstep j t (by omega) (by omega)
    rwa [Nat.add_right_comm, Nat.add_assoc] at hrest

theorem Safe.loopDown {f : Nat → σ → Run ε σ} {I : Nat → σ → Prop} (hs : I i s)
    (hstep : ∀ j s, j < i → I (j + 1) s → Safe (I j) (f (j + 1) s)) :
    Safe (I 0) (loopDown f i s) := by
  induction i generalizing s with
  | zero => exact .done hs
  | succ i ih =>
    apply (hstep i s (Nat.lt_succ_self i) hs).bind
    intro s' hs'
    exact ih hs' fun j t hj => hstep j t (Nat.lt_succ_of_lt hj)

/-- Two runs side by side: a fault of either stops both. -/
def beside (x : Run ε α) (y : Run ε β) : Run ε (α × β) :=
  match x with
  | .fault e => .fault e
  | .done a =>
    match y with
    | .done b => .done (a, b)
    | .fault e => .fault e
    | .running => .running
  | .running =>
    match y with
    | .fault e => .fault e
    | _ => .running

theorem Safe.beside {x : Run ε α} {y : Run ε β} (hx : Safe P x) (hy : Safe Q y) :
    Safe (fun p => P p.1 ∧ Q p.2) (beside x y) := by
  cases hx with
  | done ha =>
    cases hy with
    | done hb => exact .done ⟨ha, hb⟩
    | running => exact .running
  | running =>
    cases hy with
    | done hb => exact .running
    | running => exact .running

theorem beside_done {x : Run ε α} {y : Run ε β} (h : beside x y = .done p) :
    x = .done p.1 ∧ y = .done p.2 := by
  cases x with
  | done a =>
    cases y with
    | done b =>
      cases h
      exact ⟨rfl, rfl⟩
    | fault e => cases h
    | running => cases h
  | fault e => cases h
  | running => cases y <;> cases h

theorem beside_fault {x : Run ε α} {y : Run ε β} (h : (∃ e, x = .fault e) ∨ ∃ e, y = .fault e) :
    ∃ e, beside x y = .fault e := by
  cases x with
  | fault e => exact ⟨e, rfl⟩
  | done a =>
    rcases h with ⟨e, h⟩ | ⟨e, h⟩
    · cases h
    · exact ⟨e, by rw [h]; rfl⟩
  | running =>
    rcases h with ⟨e, h⟩ | ⟨e, h⟩
    · cases h
    · exact ⟨e, by rw [h]; rfl⟩

theorem beside_ne_running {x : Run ε α} {y : Run ε β} (hx : x ≠ .running) (hy : y ≠ .running) :
    beside x y ≠ .running := by
  cases x with
  | done a =>
    cases y with
    | done b => exact nofun
    | fault e => exact nofun
    | running => exact absurd rfl hy
  | fault e => exact nofun
  | running => exact absurd rfl hx

/-- Runs side by side, and what they all come to. -/
def all : List (Run ε α) → Run ε (List α)
  | [] => .done []
  | x :: xs => beside x (all xs) >>= fun p => .done (p.1 :: p.2)

theorem Safe.all {xs : List (Run ε α)} (h : ∀ x ∈ xs, Safe P x) :
    Safe (fun as => as.length = xs.length ∧ ∀ a ∈ as, P a) (all xs) := by
  induction xs with
  | nil => exact .done ⟨rfl, fun a ha => absurd ha List.not_mem_nil⟩
  | cons x xs ih =>
    apply ((h x List.mem_cons_self).beside (ih fun y hy => h y (List.mem_cons_of_mem x hy))).bind
    rintro ⟨a, as⟩ ⟨ha, hlen, has⟩
    exact .done ⟨congrArg Nat.succ hlen, List.forall_mem_cons.2 ⟨ha, has⟩⟩

theorem all_done_cons {x : Run ε α} {xs : List (Run ε α)} (h : all (x :: xs) = .done as) :
    ∃ a as', as = a :: as' ∧ x = .done a ∧ all xs = .done as' := by
  obtain ⟨p, hp, h⟩ := bind_eq_done.1 h
  obtain ⟨hx, hxs⟩ := beside_done hp
  cases h
  exact ⟨p.1, p.2, rfl, hx, hxs⟩

theorem all_done_length {xs : List (Run ε α)} (h : all xs = .done as) : as.length = xs.length := by
  induction xs generalizing as with
  | nil =>
    cases h
    rfl
  | cons x xs ih =>
    obtain ⟨a, as', rfl, -, hxs⟩ := all_done_cons h
    exact congrArg Nat.succ (ih hxs)

theorem all_fault {xs : List (Run ε α)} (hx : .fault e ∈ xs) : ∃ e', all xs = .fault e' := by
  induction xs with
  | nil => cases hx
  | cons y ys ih =>
    have hbeside : ∃ e', beside y (all ys) = .fault e' := by
      apply beside_fault
      rcases List.mem_cons.1 hx with rfl | hx
      · exact .inl ⟨e, rfl⟩
      · exact .inr (ih hx)
    obtain ⟨e', he⟩ := hbeside
    exact ⟨e', by rw [all, he]; rfl⟩

theorem all_ne_running {xs : List (Run ε α)} (h : ∀ x ∈ xs, x ≠ .running) : all xs ≠ .running := by
  induction xs with
  | nil => exact nofun
  | cons x xs ih =>
    apply bind_ne_running
    · exact beside_ne_running (h x List.mem_cons_self)
        (ih fun y hy => h y (List.mem_cons_of_mem x hy))
    · exact fun _ _ => nofun

end Run

end Prog

import MmMem.Library.SharedObject

namespace Prog
set_option autoImplicit true

/-- Two runs come to the same, up to a relation between what they return. -/
inductive Run.Matches (R : α → β → Prop) : Run ε α → Run ε' β → Prop where
  | done (h : R a b) : Matches R (.done a) (.done b)
  | running : Matches R .running .running

theorem Run.Matches.mono {R R' : α → β → Prop} {x : Run ε α} {y : Run ε' β} (h : Matches R x y)
    (hR : ∀ a b, R a b → R' a b) : Matches R' x y := by
  cases h with
  | done h => exact .done (hR _ _ h)
  | running => exact .running

theorem Run.Matches.eq {x y : Run ε α} (h : Matches Eq x y) : x = y := by
  cases h with
  | done h => rw [h]
  | running => rfl

namespace Caller

variable {ο : Type} {ρ : ο → Type} {obj : SharedObject ο ρ σ} {may : ο → Prop}

/-- With the object to itself the code makes no other calls than these, and this is how it ends. -/
def Ends (obj : SharedObject ο ρ σ) (may : ο → Prop) (E : Run ε α → σ → Prop) :
    Caller ο ρ ε α → σ → Prop
  | .ret x, s => E x s
  | .call o k, s => may o ∧ Ends obj may E (k (obj o s).1) (obj o s).2

theorem Ends.mono {E E' : Run ε α → σ → Prop} {m : Caller ο ρ ε α} (h : m.Ends obj may E s)
    (hE : ∀ x s, E x s → E' x s) : m.Ends obj may E' s := by
  induction m generalizing s with
  | ret x => exact hE x s h
  | call o k ih => exact ⟨h.1, ih _ h.2⟩

theorem Ends.bind {E : Run ε α → σ → Prop} {E' : Run ε β → σ → Prop} {m : Caller ο ρ ε α}
    {f : α → Caller ο ρ ε β} (h : m.Ends obj may E s)
    (hdone : ∀ a s, E (.done a) s → (f a).Ends obj may E' s)
    (hfault : ∀ e s, E (.fault e) s → E' (.fault e) s)
    (hrunning : ∀ s, E .running s → E' .running s) : (m >>= f).Ends obj may E' s := by
  induction m generalizing s with
  | ret x =>
    cases x with
    | done a => exact hdone a s h
    | fault e => exact hfault e s h
    | running => exact hrunning s h
  | call o k ih => exact ⟨h.1, ih _ h.2⟩

/-- The code does what a run without the object does, unless that faults. -/
structure Refines (obj : SharedObject ο ρ σ) (may : ο → Prop) (R : α → σ → β → Prop)
    (m : Caller ο ρ ε α) (s : σ) (x : Run ε' β) : Prop where
  ends : (∀ e, x ≠ .fault e) → m.Ends obj may (fun y s => y.Matches (fun a b => R a s b) x) s

theorem Refines.mono {R R' : α → σ → β → Prop} {m : Caller ο ρ ε α} {x : Run ε' β}
    (h : m.Refines obj may R s x) (hR : ∀ a s b, R a s b → R' a s b) :
    m.Refines obj may R' s x :=
  ⟨fun hx => (h.ends hx).mono fun _ s hy => hy.mono fun a b => hR a s b⟩

theorem Refines.done {R : α → σ → β → Prop} (h : R a s b) :
    (pure a : Caller ο ρ ε α).Refines obj may R s (.done b : Run ε' β) :=
  ⟨fun _ => .done h⟩

theorem Refines.lift {R : α → σ → α → Prop} (x : Run ε α) (h : ∀ a, x = .done a → R a s a) :
    (liftM x : Caller ο ρ ε α).Refines obj may R s x := by
  refine ⟨fun hx => ?_⟩
  cases x with
  | done a => exact .done (h a rfl)
  | fault e => exact absurd rfl (hx e)
  | running => exact .running

theorem Refines.ask {R : ρ o → σ → β → Prop} (hmay : may o) (h : R (obj o s).1 (obj o s).2 b) :
    (ask o : Caller ο ρ ε (ρ o)).Refines obj may R s (.done b : Run ε' β) :=
  ⟨fun _ => ⟨hmay, .done h⟩⟩

theorem Refines.bind {R : α → σ → β → Prop} {R' : α' → σ → β' → Prop} {m : Caller ο ρ ε α}
    {f : α → Caller ο ρ ε α'} {x : Run ε' β} {g : β → Run ε' β'} (hm : m.Refines obj may R s x)
    (hf : ∀ a s b, R a s b → (f a).Refines obj may R' s (g b)) :
    (m >>= f).Refines obj may R' s (x >>= g) := by
  refine ⟨fun hx => ?_⟩
  cases x with
  | done b =>
    apply (hm.ends nofun).bind
    · rintro a s (h | _)
      exact (hf a s b h).ends hx
    · exact fun e s h => nomatch h
    · exact fun s h => nomatch h
  | fault e => exact absurd rfl (hx e)
  | running =>
    apply (hm.ends nofun).bind
    · exact fun a s h => nomatch h
    · exact fun e s h => nomatch h
    · exact fun s h => .running

/-- What the code does without a call is done on both sides. -/
theorem Refines.lift_bind {R : α → σ → β → Prop} {x : Run ε γ} {f : γ → Caller ο ρ ε α}
    {g : γ → Run ε β} (h : ∀ c, x = .done c → (f c).Refines obj may R s (g c)) :
    (liftM x >>= f : Caller ο ρ ε α).Refines obj may R s (x >>= g) := by
  refine ⟨fun hx => ?_⟩
  cases x with
  | done c => exact (h c rfl).ends hx
  | fault e => exact absurd rfl (hx e)
  | running => exact .running

theorem Refines.map {R : α → σ → β → Prop} {R' : α → σ → γ → Prop} {m : Caller ο ρ ε α}
    {x : Run ε' β} (g : β → γ) (hm : m.Refines obj may R s x)
    (h : ∀ a s b, R a s b → R' a s (g b)) :
    m.Refines obj may R' s (x >>= fun b => .done (g b)) := by
  refine ⟨fun hx => ?_⟩
  cases x with
  | done b =>
    apply (hm.ends nofun).mono
    rintro y s (hR | _)
    exact .done (h _ s b hR)
  | fault e => exact absurd rfl (hx e)
  | running =>
    apply (hm.ends nofun).mono
    rintro y s (_ | _)
    exact .running

/-- A `for` loop counting up: `n` trips, the first at index `i`. -/
def loop (f : Nat → τ → Caller ο ρ ε τ) : Nat → Nat → τ → Caller ο ρ ε τ
  | 0, _, t => pure t
  | n + 1, i, t => f i t >>= loop f n (i + 1)

theorem Refines.loop {R : τ → σ → υ → Prop} {f : Nat → τ → Caller ο ρ ε τ}
    {g : Nat → υ → Run ε' υ} (h : ∀ i t s u, R t s u → (f i t).Refines obj may R s (g i u))
    (hR : R t s u) : (Caller.loop f n i t).Refines obj may R s (Run.loop g n i u) := by
  induction n generalizing i t s u with
  | zero => exact .done hR
  | succ n ih => exact (h i t s u hR).bind fun t s u hR => ih hR

end Caller

/-- A division of an object among its callers: the calls each may make, and which states look
alike to it. -/
structure Division (κ : Type) (obj : SharedObject ο ρ σ) where
  may : κ → ο → Prop
  Alike : κ → σ → σ → Prop
  refl : ∀ v s, Alike v s s
  answer : may v o → Alike v s t → (obj o s).1 = (obj o t).1
  own : may v o → Alike v s t → Alike v (obj o s).2 (obj o t).2
  other : v ≠ w → may w o → Alike v s t → Alike v (obj o s).2 t

namespace Division

variable {ο : Type} {ρ : ο → Type} {obj : SharedObject ο ρ σ} (D : Division κ obj)
  {E : κ → Run ε α → σ → Prop} {s t : Sharing κ ο ρ σ ε α}

/-- No caller has left its part, and each is on its way to the end it comes to alone. -/
def Kept (E : κ → Run ε α → σ → Prop) (s : Sharing κ ο ρ σ ε α) : Prop :=
  ∀ v, D.Alike v s.object (s.own v) ∧ (s.callers v).Ends obj (D.may v) (E v) (s.own v)

theorem Kept.start {callers : κ → Caller ο ρ ε α} {o : σ}
    (h : ∀ v, (callers v).Ends obj (D.may v) (E v) o) : D.Kept E (.start o callers) :=
  fun v => ⟨D.refl v o, h v⟩

variable {D}

/-- The next call of a caller is one it may make. -/
theorem Kept.may (h : D.Kept E s) (hcall : s.callers v = .call o k) : D.may v o := by
  have hv := (h v).2
  rw [hcall] at hv
  exact hv.1

/-- A caller that has returned has come to its end, in a state that looks to it like the object. -/
theorem Kept.ret (h : D.Kept E s) (hret : s.callers v = .ret x) :
    ∃ own, D.Alike v s.object own ∧ E v x own := by
  obtain ⟨halike, hv⟩ := h v
  rw [hret] at hv
  exact ⟨_, halike, hv⟩

variable [DecidableEq κ]

theorem Kept.step (h : D.Kept E s) (w : κ) : D.Kept E (s.step obj w) := by
  rw [Sharing.step]
  split
  · exact h
  · next o k hcall =>
    have hw := (h w).2
    rw [hcall] at hw
    obtain ⟨hmay, hends⟩ := hw
    intro v
    by_cases hv : v = w
    · subst hv
      simp only [Function.update_self]
      rw [D.answer hmay (h v).1]
      exact ⟨D.own hmay (h v).1, hends⟩
    · simp only [Function.update_of_ne hv]
      exact ⟨D.other hv hmay (h v).1, (h v).2⟩

theorem Kept.run (h : D.Kept E s) (schedule : List κ) : D.Kept E (s.run obj schedule) := by
  induction schedule generalizing s with
  | nil => exact h
  | cons w schedule ih => exact ih (h.step w)

end Division

namespace Sharing

variable {ο : Type} {ρ : ο → Type} {obj : SharedObject ο ρ σ} [DecidableEq κ]
  {s : Sharing κ ο ρ σ ε α}

/-- The caller has returned. -/
def Returned (s : Sharing κ ο ρ σ ε α) (v : κ) : Prop := ∃ x, s.callers v = .ret x

theorem Returned.step (h : s.Returned v) (w : κ) : (s.step obj w).Returned v := by
  obtain ⟨x, hx⟩ := h
  by_cases hv : v = w
  · subst hv
    exact ⟨x, by rw [Sharing.step, hx, hx]⟩
  · exact ⟨x, (step_callers_ne hv).trans hx⟩

theorem Returned.run (h : s.Returned v) (schedule : List κ) : (s.run obj schedule).Returned v := by
  induction schedule generalizing s with
  | nil => exact h
  | cons w schedule ih => exact ih (h.step w)

theorem exists_returned (obj : SharedObject ο ρ σ) (s : Sharing κ ο ρ σ ε α) (v : κ) :
    ∃ n, (s.run obj (List.replicate n v)).Returned v := by
  induction hc : s.callers v generalizing s with
  | ret x => exact ⟨0, x, hc⟩
  | call o k ih =>
    have hnext : (s.step obj v).callers v = k (obj o s.object).1 := by
      rw [Sharing.step, hc]
      exact Function.update_self ..
    obtain ⟨n, hn⟩ := ih _ (s.step obj v) hnext
    exact ⟨n + 1, hn⟩

/-- Whatever has happened so far, all callers can return. -/
theorem exists_all_returned (obj : SharedObject ο ρ σ) (s : Sharing κ ο ρ σ ε α) (vs : List κ) :
    ∃ schedule, ∀ v ∈ vs, (s.run obj schedule).Returned v := by
  induction vs generalizing s with
  | nil => exact ⟨[], fun v hv => absurd hv List.not_mem_nil⟩
  | cons v vs ih =>
    obtain ⟨n, hv⟩ := exists_returned obj s v
    obtain ⟨schedule, hvs⟩ := ih (s.run obj (List.replicate n v))
    refine ⟨List.replicate n v ++ schedule, ?_⟩
    rw [Sharing.run, List.foldl_append]
    exact List.forall_mem_cons.2 ⟨hv.run schedule, hvs⟩

end Sharing

end Prog

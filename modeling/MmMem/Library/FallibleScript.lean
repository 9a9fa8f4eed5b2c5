import Mathlib.Logic.Basic

namespace Prog
set_option autoImplicit true

/-- Code with exceptions whose effects on the state outlive the exception. -/
def Script (ε σ α : Type) : Type := σ → Except ε α × σ

namespace Script

instance : Monad (Script ε σ) where
  pure a := fun s => (.ok a, s)
  bind m f := fun s =>
    match m s with
    | (.ok a, s') => f a s'
    | (.error e, s') => (.error e, s')

def raise (e : ε) : Script ε σ α := fun s => (.error e, s)

/-- Code that may raise but has no other effect. -/
def ofExcept (x : Except ε α) : Script ε σ α := fun s => (x, s)

def get : Script ε σ σ := fun s => (.ok s, s)

def modify (f : σ → σ) : Script ε σ Unit := fun s => (.ok (), f s)

/-- `try: m` with an `except` clause for the exceptions `h` gives a handler for. -/
def tryExcept (m : Script ε σ α) (h : ε → Option (Script ε σ α)) : Script ε σ α := fun s =>
  match m s with
  | (.ok a, s') => (.ok a, s')
  | (.error e, s') =>
    match h e with
    | some k => k s'
    | none => (.error e, s')

/-- `try: m` with a `finally` clause, whose own exception replaces the outcome of `m`. -/
def tryFinally (m : Script ε σ α) (cleanup : Script ε σ Unit) : Script ε σ α := fun s =>
  match cleanup (m s).2 with
  | (.ok _, s') => ((m s).1, s')
  | (.error e, s') => (.error e, s')

/-- An `if` statement without `else`. -/
def whenever (b : Bool) (m : Script ε σ Unit) : Script ε σ Unit := if b then m else pure ()

/-- A `for` loop over a list. -/
def forEach (l : List β) (f : β → Script ε σ Unit) : Script ε σ Unit :=
  match l with
  | [] => pure ()
  | a :: l => f a >>= fun _ => forEach l f

/-- A `for` loop over a list that collects what some of the trips yield. -/
def collect (l : List β) (f : β → Script ε σ (Option γ)) : Script ε σ (List γ) :=
  match l with
  | [] => pure []
  | a :: l => do
    let x ← f a
    let xs ← collect l f
    pure (x.toList ++ xs)

/-- A `for` loop over a list that updates a local variable. -/
def fold (l : List β) (a : α) (f : α → β → Script ε σ α) : Script ε σ α :=
  match l with
  | [] => pure a
  | b :: l => f a b >>= fun a => fold l a f

theorem bind_apply (m : Script ε σ α) (f : α → Script ε σ β) (s : σ) :
    (m >>= f) s =
      match m s with
      | (.ok a, s') => f a s'
      | (.error e, s') => (.error e, s') := rfl

instance : LawfulMonad (Script ε σ) :=
  .mk' _
    (fun m => by
      funext s
      change (m >>= pure) s = m s
      rw [bind_apply]
      rcases m s with ⟨_ | _, s'⟩ <;> rfl)
    (fun _ _ => rfl)
    (fun m f g => by
      funext s
      rw [bind_apply, bind_apply, bind_apply]
      rcases m s with ⟨_ | _, s'⟩ <;> rfl)

theorem forEach_append (l l' : List β) (f : β → Script ε σ Unit) :
    forEach (l ++ l') f = forEach l f >>= fun _ => forEach l' f := by
  induction l with
  | nil => rfl
  | cons a l ih =>
    rw [List.cons_append, forEach, forEach, ih, bind_assoc]

theorem forEach_singleton (a : β) (f : β → Script ε σ Unit) : forEach [a] f = f a :=
  bind_pure (f a)

theorem whenever_forEach (b : Bool) (l : List β) (f : β → Script ε σ Unit) :
    whenever b (forEach l f) = forEach (if b then l else []) f := by
  cases b <;> rfl

theorem forEach_map (l : List γ) (g : γ → β) (f : β → Script ε σ Unit) :
    forEach (l.map g) f = forEach l fun a => f (g a) := by
  induction l with
  | nil => rfl
  | cons a l ih => rw [List.map_cons, forEach, forEach, ih]

@[simp] theorem pure_apply (a : α) (s : σ) : (pure a : Script ε σ α) s = (.ok a, s) := rfl

theorem ofExcept_bind (x : Except ε α) (f : α → Script ε σ β) (s : σ) :
    (ofExcept x >>= f) s =
      match x with
      | .ok a => f a s
      | .error e => (.error e, s) := by
  cases x with
  | ok a => rfl
  | error e => rfl

@[simp] theorem get_apply (s : σ) : (get : Script ε σ σ) s = (.ok s, s) := rfl

@[simp] theorem modify_apply (f : σ → σ) (s : σ) :
    (modify f : Script ε σ Unit) s = (.ok (), f s) := rfl

theorem bind_ok {m : Script ε σ α} (f : α → Script ε σ β) (h : m s = (.ok a, s')) :
    (m >>= f) s = f a s' := by
  rw [bind_apply, h]

theorem bind_error {m : Script ε σ α} (f : α → Script ε σ β) (h : m s = (.error e, s')) :
    (m >>= f) s = (.error e, s') := by
  rw [bind_apply, h]

@[simp] theorem pure_bind (a : α) (f : α → Script ε σ β) : (pure a >>= f) = f a := rfl

theorem returned {x : Except ε α} (h : x.toOption = some a) : x = .ok a := by
  cases x with
  | ok b => exact congrArg Except.ok (Option.some.inj h)
  | error e => cases h

/-- The postconditions of a script: one where it returns, one where it raises. -/
def Post (Q : α → σ → Prop) (E : ε → σ → Prop) (o : Except ε α × σ) : Prop :=
  match o with
  | (.ok a, s) => Q a s
  | (.error e, s) => E e s

/-- From a state meeting `P` the script returns meeting `Q` or raises meeting `E`. -/
def Meets (P : σ → Prop) (m : Script ε σ α) (Q : α → σ → Prop) (E : ε → σ → Prop) : Prop :=
  ∀ s, P s → Post Q E (m s)

/-- If the script returns from a state meeting `P`, it leaves one meeting `Q`. -/
def Ensures (P : σ → Prop) (m : Script ε σ α) (Q : α → σ → Prop) : Prop :=
  Meets P m Q fun _ _ => True

/-- The script keeps `I`, whether it returns or raises. -/
def Keeps (I : σ → Prop) (m : Script ε σ α) : Prop := Meets I m (fun _ => I) fun _ => I

/-- From a state meeting `I` the script returns, and `I` holds again. -/
def Completes (I : σ → Prop) (m : Script ε σ α) : Prop :=
  Meets I m (fun _ => I) fun _ _ => False

theorem Post.mono {o : Except ε α × σ} {Q Q' : α → σ → Prop} {E E' : ε → σ → Prop}
    (h : Post Q E o) (hQ : ∀ a s, Q a s → Q' a s) (hE : ∀ e s, E e s → E' e s) :
    Post Q' E' o := by
  obtain ⟨r, s⟩ := o
  cases r with
  | ok a => exact hQ a s h
  | error e => exact hE e s h

theorem Meets.mono {m : Script ε σ α} {P P' : σ → Prop} {Q Q' : α → σ → Prop}
    {E E' : ε → σ → Prop} (h : Meets P m Q E) (hP : ∀ s, P' s → P s)
    (hQ : ∀ a s, Q a s → Q' a s) (hE : ∀ e s, E e s → E' e s) : Meets P' m Q' E' :=
  fun s hs => (h s (hP s hs)).mono hQ hE

theorem Meets.mono_returns {m : Script ε σ α} {P : σ → Prop} {Q Q' : α → σ → Prop}
    {E : ε → σ → Prop} (h : Meets P m Q E) (hQ : ∀ a s, Q a s → Q' a s) : Meets P m Q' E :=
  h.mono (fun _ hs => hs) hQ fun _ _ hs => hs

theorem Meets.mono_raises {m : Script ε σ α} {P : σ → Prop} {Q : α → σ → Prop}
    {E E' : ε → σ → Prop} (h : Meets P m Q E) (hE : ∀ e s, E e s → E' e s) : Meets P m Q E' :=
  h.mono (fun _ hs => hs) (fun _ _ hs => hs) hE

theorem Meets.and {m : Script ε σ α} {P P' : σ → Prop} {Q Q' : α → σ → Prop}
    {E E' : ε → σ → Prop} (h : Meets P m Q E) (h' : Meets P' m Q' E') :
    Meets (fun s => P s ∧ P' s) m (fun a s => Q a s ∧ Q' a s) fun e s => E e s ∧ E' e s := by
  intro s hs
  have hq := h s hs.1
  have hq' := h' s hs.2
  cases hr : m s with
  | mk r s' =>
    rw [hr] at hq hq'
    cases r with
    | ok a => exact ⟨hq, hq'⟩
    | error e => exact ⟨hq, hq'⟩

theorem Meets.bind {m : Script ε σ α} {f : α → Script ε σ β} {P : σ → Prop}
    {Q : α → σ → Prop} {R : β → σ → Prop} {E : ε → σ → Prop} (hm : Meets P m Q E)
    (hf : ∀ a, Meets (Q a) (f a) R E) : Meets P (m >>= f) R E := by
  intro s hs
  have hq := hm s hs
  cases hr : m s with
  | mk r s' =>
    rw [hr] at hq
    cases r with
    | ok a =>
      rw [bind_ok f hr]
      exact hf a s' hq
    | error e =>
      rw [bind_error f hr]
      exact hq

theorem Meets.pure {P : σ → Prop} {Q : α → σ → Prop} {E : ε → σ → Prop} {a : α}
    (h : ∀ s, P s → Q a s) : Meets P (Pure.pure a : Script ε σ α) Q E := h

theorem Meets.raise {P : σ → Prop} {Q : α → σ → Prop} {E : ε → σ → Prop} {e : ε}
    (h : ∀ s, P s → E e s) : Meets P (Script.raise e : Script ε σ α) Q E := h

theorem Meets.get_bind {f : σ → Script ε σ β} {P : σ → Prop} {Q : β → σ → Prop}
    {E : ε → σ → Prop} (h : ∀ s, P s → Post Q E (f s s)) : Meets P (Script.get >>= f) Q E := h

theorem Meets.modify {P : σ → Prop} {Q : Unit → σ → Prop} {E : ε → σ → Prop} {f : σ → σ}
    (h : ∀ s, P s → Q () (f s)) : Meets P (Script.modify f : Script ε σ Unit) Q E := h

theorem Meets.ensures {m : Script ε σ α} {P : σ → Prop} {Q : α → σ → Prop} {E : ε → σ → Prop}
    (h : Meets P m Q E) : Ensures P m Q :=
  h.mono_raises fun _ _ _ => trivial

theorem Meets.of_true {P : σ → Prop} (m : Script ε σ α) :
    Meets P m (fun _ _ => True) fun _ _ => True := by
  intro s _
  obtain ⟨r, s'⟩ := m s
  cases r with
  | ok a => trivial
  | error e => trivial

theorem Ensures.mono {m : Script ε σ α} {P P' : σ → Prop} {Q Q' : α → σ → Prop}
    (h : Ensures P m Q) (hP : ∀ s, P' s → P s) (hQ : ∀ a s, Q a s → Q' a s) :
    Ensures P' m Q' := Meets.mono h hP hQ fun _ _ _ => trivial

theorem Ensures.bind {m : Script ε σ α} {f : α → Script ε σ β} {P : σ → Prop}
    {Q : α → σ → Prop} {R : β → σ → Prop} (hm : Ensures P m Q)
    (hf : ∀ a, Ensures (Q a) (f a) R) : Ensures P (m >>= f) R := Meets.bind hm hf

/-- What follows a script only matters where the script can return to. -/
theorem Ensures.bind_congr {m : Script ε σ α} {f g : α → Script ε σ β} {P : σ → Prop}
    {Q : α → σ → Prop} (hm : Ensures P m Q) (hfg : ∀ a s, Q a s → f a s = g a s) (hs : P s) :
    (m >>= f) s = (m >>= g) s := by
  have hq := hm s hs
  cases hr : m s with
  | mk r s' =>
    rw [hr] at hq
    cases r with
    | ok a => rw [bind_ok f hr, bind_ok g hr, hfg a s' hq]
    | error e => rw [bind_error f hr, bind_error g hr]

theorem Ensures.pure {P : σ → Prop} {Q : α → σ → Prop} {a : α} (h : ∀ s, P s → Q a s) :
    Ensures P (Pure.pure a : Script ε σ α) Q := h

theorem Ensures.modify {P : σ → Prop} {Q : Unit → σ → Prop} {f : σ → σ}
    (h : ∀ s, P s → Q () (f s)) : Ensures P (Script.modify f : Script ε σ Unit) Q := h

theorem Ensures.raise {P : σ → Prop} {Q : α → σ → Prop} {e : ε} :
    Ensures P (Script.raise e : Script ε σ α) Q := fun _ _ => trivial

theorem Post.state {o : Except ε α × σ} {I : σ → Prop} (h : Post (fun _ => I) (fun _ => I) o) :
    I o.2 := by
  obtain ⟨r, s⟩ := o
  cases r with
  | ok a => exact h
  | error e => exact h

theorem Keeps.state {m : Script ε σ α} {I : σ → Prop} (h : Keeps I m) (hs : I s) :
    I (m s).2 := (h s hs).state

theorem Keeps.of_state {m : Script ε σ α} {I : σ → Prop} (h : ∀ s, I s → I (m s).2) :
    Keeps I m := by
  intro s hs
  have hstate := h s hs
  cases hr : m s with
  | mk r s' =>
    rw [hr] at hstate
    cases r with
    | ok a => exact hstate
    | error e => exact hstate

theorem Keeps.bind {m : Script ε σ α} {f : α → Script ε σ β} {I : σ → Prop} (hm : Keeps I m)
    (hf : ∀ a, Keeps I (f a)) : Keeps I (m >>= f) := Meets.bind hm hf

theorem Keeps.bind_meets {m : Script ε σ α} {f : α → Script ε σ β} {I : σ → Prop}
    {R : β → σ → Prop} {E : ε → σ → Prop} (hm : Keeps I m) (hE : ∀ e s, I s → E e s)
    (hf : ∀ a, Meets I (f a) R E) : Meets I (m >>= f) R E :=
  (hm.mono_raises hE).bind hf

theorem Keeps.pure (I : σ → Prop) (a : α) : Keeps I (Pure.pure a : Script ε σ α) :=
  fun _ h => h

theorem Keeps.raise (I : σ → Prop) (e : ε) : Keeps I (Script.raise e : Script ε σ α) :=
  fun _ h => h

theorem Keeps.get (I : σ → Prop) : Keeps I (Script.get : Script ε σ σ) := fun _ h => h

/-- The handlers start where the exception left the state. -/
theorem Meets.tryExcept {m : Script ε σ α} {h : ε → Option (Script ε σ α)} {P : σ → Prop}
    {Q : α → σ → Prop} {E E' : ε → σ → Prop} (hm : Meets P m Q E)
    (hh : ∀ e k, h e = some k → Meets (E e) k Q E') (hn : ∀ e, h e = none → ∀ s, E e s → E' e s) :
    Meets P (tryExcept m h) Q E' := by
  intro s hs
  have hq := hm s hs
  rw [Script.tryExcept]
  cases hr : m s with
  | mk r s' =>
    rw [hr] at hq
    cases r with
    | ok a => exact hq
    | error e =>
      cases hk : h e with
      | some k => simpa only [hk] using hh e k hk s' hq
      | none =>
        simp only [hk]
        exact hn e hk s' hq

theorem Keeps.tryExcept {m : Script ε σ α} {h : ε → Option (Script ε σ α)} {I : σ → Prop}
    (hm : Keeps I m) (hh : ∀ e k, h e = some k → Keeps I k) : Keeps I (Script.tryExcept m h) :=
  Meets.tryExcept hm hh fun _ _ _ hs => hs

/-- A cleanup that keeps what the body, however it ends, has left. -/
theorem Meets.tryFinally {m : Script ε σ α} {cleanup : Script ε σ Unit} {P I : σ → Prop}
    (hm : Meets P m (fun _ => I) fun _ => I) (hc : Keeps I cleanup) :
    Meets P (tryFinally m cleanup) (fun _ => I) fun _ => I := by
  intro s hs
  have hi := hc (m s).2 (hm s hs).state
  rw [Script.tryFinally]
  cases hr : cleanup (m s).2 with
  | mk r s' =>
    rw [hr] at hi
    cases r with
    | ok u =>
      simp only
      cases (m s).1 with
      | ok a => exact hi
      | error e => exact hi
    | error e => exact hi

/-- A cleanup after either end of the body. -/
theorem Meets.tryFinally_of {m : Script ε σ α} {cleanup : Script ε σ Unit} {P : σ → Prop}
    {Q R : α → σ → Prop} {E F : ε → σ → Prop} (hm : Meets P m Q E)
    (hok : ∀ a, Meets (Q a) cleanup (fun _ => R a) F)
    (herr : ∀ e, Meets (E e) cleanup (fun _ => F e) F) :
    Meets P (Script.tryFinally m cleanup) R F := by
  intro s hs
  have hpost := hm s hs
  rw [Script.tryFinally]
  cases hr : m s with
  | mk r s₁ =>
    rw [hr] at hpost
    cases r with
    | ok a =>
      have hc := hok a s₁ hpost
      cases hclean : cleanup s₁ with
      | mk r₂ s₂ =>
        rw [hclean] at hc
        cases r₂ with
        | ok u => exact hc
        | error e => exact hc
    | error e =>
      have hc := herr e s₁ hpost
      cases hclean : cleanup s₁ with
      | mk r₂ s₂ =>
        rw [hclean] at hc
        cases r₂ with
        | ok u => exact hc
        | error e => exact hc

theorem Completes.bind {m : Script ε σ α} {f : α → Script ε σ β} {I : σ → Prop}
    {R : β → σ → Prop} {E : ε → σ → Prop} (hm : Completes I m) (hf : ∀ a, Meets I (f a) R E) :
    Meets I (m >>= f) R E := Meets.bind (hm.mono_raises nofun) hf

theorem Completes.pure (I : σ → Prop) (a : α) :
    Completes I (Pure.pure a : Script ε σ α) := fun _ h => h

theorem Meets.returns {m : Script ε σ α} {P : σ → Prop} {Q : α → σ → Prop}
    (h : Meets P m Q fun _ _ => False) (hs : P s) : ∃ a s', m s = (.ok a, s') ∧ Q a s' := by
  have hpost := h s hs
  cases hr : m s with
  | mk r s' =>
    rw [hr] at hpost
    cases r with
    | ok a => exact ⟨a, s', rfl, hpost⟩
    | error e => exact hpost.elim

theorem Completes.returns {m : Script ε σ α} {I : σ → Prop} (h : Completes I m) (hs : I s) :
    ∃ a s', m s = (.ok a, s') ∧ I s' := Meets.returns h hs

theorem Meets.whenever {m : Script ε σ Unit} {I : σ → Prop} {E : ε → σ → Prop}
    (h : b = true → Meets I m (fun _ => I) E) : Meets I (whenever b m) (fun _ => I) E := by
  cases b with
  | false => exact fun _ hs => hs
  | true => exact h rfl

theorem Meets.forEach_mem {l : List β} {f : β → Script ε σ Unit} {I : σ → Prop}
    {E : ε → σ → Prop} (hf : ∀ a ∈ l, Meets I (f a) (fun _ => I) E) :
    Meets I (forEach l f) (fun _ => I) E := by
  induction l with
  | nil => exact fun _ hs => hs
  | cons a l ih =>
    exact (hf a List.mem_cons_self).bind fun _ => ih fun b hb => hf b (List.mem_cons_of_mem a hb)

theorem Meets.collect_mem {l : List β} {f : β → Script ε σ (Option γ)} {I : σ → Prop}
    {E : ε → σ → Prop} (hf : ∀ a ∈ l, Meets I (f a) (fun _ => I) E) :
    Meets I (collect l f) (fun _ => I) E := by
  induction l with
  | nil => exact fun _ hs => hs
  | cons a l ih =>
    apply (hf a List.mem_cons_self).bind
    intro x
    apply (ih fun b hb => hf b (List.mem_cons_of_mem a hb)).bind
    exact fun xs _ hs => hs

theorem Completes.whenever {m : Script ε σ Unit} {I : σ → Prop} (h : b = true → Completes I m) :
    Completes I (whenever b m) := Meets.whenever h

theorem Completes.forEach {l : List β} {f : β → Script ε σ Unit} {I : σ → Prop}
    (hf : ∀ a ∈ l, Completes I (f a)) : Completes I (forEach l f) := Meets.forEach_mem hf

theorem Completes.collect {l : List β} {f : β → Script ε σ (Option γ)} {I : σ → Prop}
    (hf : ∀ a ∈ l, Completes I (f a)) : Completes I (collect l f) := Meets.collect_mem hf

theorem Keeps.whenever {m : Script ε σ Unit} {I : σ → Prop} (h : b = true → Keeps I m) :
    Keeps I (whenever b m) := Meets.whenever h

theorem Keeps.forEach {l : List β} {f : β → Script ε σ Unit} {I : σ → Prop}
    (hf : ∀ a ∈ l, Keeps I (f a)) : Keeps I (forEach l f) := Meets.forEach_mem hf

theorem Keeps.collect {l : List β} {f : β → Script ε σ (Option γ)} {I : σ → Prop}
    (hf : ∀ a ∈ l, Keeps I (f a)) : Keeps I (collect l f) := Meets.collect_mem hf

/-- A loop whose invariant speaks about the trips still to come. -/
theorem Meets.forEach {f : β → Script ε σ Unit} {I : List β → σ → Prop} {E : ε → σ → Prop}
    (hf : ∀ a l, Meets (I (a :: l)) (f a) (fun _ => I l) E) :
    Meets (I l) (forEach l f) (fun _ => I []) E := by
  induction l with
  | nil => exact fun s hs => hs
  | cons a l ih =>
    apply (hf a l).bind
    intro _
    exact ih

theorem Ensures.forEach {f : β → Script ε σ Unit} {I : List β → σ → Prop}
    (hf : ∀ a l, Ensures (I (a :: l)) (f a) fun _ => I l) :
    Ensures (I l) (forEach l f) fun _ => I [] := Meets.forEach hf

/-- A loop whose invariant speaks about the local variable and the trips still to come. -/
theorem Meets.fold {f : α → β → Script ε σ α} {I : α → List β → σ → Prop} {E : ε → σ → Prop}
    (hf : ∀ a b l, Meets (I a (b :: l)) (f a b) (fun a => I a l) E) :
    Meets (I a l) (fold l a f) (fun a => I a []) E := by
  induction l generalizing a with
  | nil => exact fun s hs => hs
  | cons b l ih =>
    apply (hf a b l).bind
    intro a
    exact ih

/-- A loop that gets through its list, or stops at one of its trips. -/
theorem Meets.forEach_stages {f : β → Script ε σ Unit} {I : List β → σ → Prop}
    {E : List β → β → ε → σ → Prop}
    (hf : ∀ before a, Meets (I before) (f a) (fun _ => I (before ++ [a])) (E before a))
    (before l : List β) : Meets (I before) (Script.forEach l f) (fun _ => I (before ++ l))
      fun e s => ∃ passed a later, l = passed ++ a :: later ∧ E (before ++ passed) a e s := by
  induction l generalizing before with
  | nil =>
    rw [List.append_nil]
    exact fun s hs => hs
  | cons a l ih =>
    apply Meets.bind (Q := fun _ => I (before ++ [a]))
    · apply (hf before a).mono_raises
      intro e s hs
      exact ⟨[], a, l, rfl, by rwa [List.append_nil]⟩
    intro _
    rw [List.append_cons before a l]
    apply (ih (before ++ [a])).mono_raises
    rintro e s ⟨passed, b, later, rfl, hs⟩
    exact ⟨a :: passed, b, later, rfl, by rwa [List.append_cons]⟩

theorem Meets.collect {f : β → Script ε σ (Option γ)} {I : List β → σ → Prop}
    {E : ε → σ → Prop} (hf : ∀ a l, Meets (I (a :: l)) (f a) (fun _ => I l) E) :
    Meets (I l) (collect l f) (fun _ => I []) E := by
  induction l with
  | nil => exact fun s hs => hs
  | cons a l ih =>
    apply (hf a l).bind
    intro x
    apply ih.bind
    intro xs s hs
    exact hs

theorem Meets.collect_none {l : List β} {f : β → Script ε σ (Option γ)} {I : σ → Prop}
    {E : ε → σ → Prop} (hf : ∀ a ∈ l, Meets I (f a) (fun x s => I s ∧ x = none) E) :
    Meets I (Script.collect l f) (fun xs s => I s ∧ xs = []) E := by
  induction l with
  | nil => exact fun s hs => ⟨hs, rfl⟩
  | cons a l ih =>
    apply (hf a List.mem_cons_self).bind
    rintro x s ⟨hs, rfl⟩
    refine Meets.bind (ih fun b hb => hf b (List.mem_cons_of_mem a hb)) (fun xs => ?_) s hs
    rintro s ⟨hs, rfl⟩
    exact ⟨hs, rfl⟩

theorem Ensures.collect {f : β → Script ε σ (Option γ)} {I : List β → σ → Prop}
    (hf : ∀ a l, Ensures (I (a :: l)) (f a) fun x s => x = none → I l s) :
    Ensures (I l) (Script.collect l f) fun xs s => xs = [] → I [] s := by
  induction l with
  | nil => exact Ensures.pure fun s hs _ => hs
  | cons a l ih =>
    apply (hf a l).bind
    intro x
    cases x with
    | some c =>
      apply Ensures.bind (Q := fun _ _ => True)
      · exact Meets.of_true _
      · exact fun xs => Ensures.pure fun s _ h => absurd h (List.cons_ne_nil c xs)
    | none =>
      apply Ensures.bind (Q := fun xs s => xs = [] → I [] s)
      · exact ih.mono (fun s hs => hs rfl) fun _ _ hs => hs
      · exact fun xs => Ensures.pure fun s hs => hs

theorem collect_cons_ok {f : β → Script ε σ (Option γ)} (ha : f a s = (.ok x, s₁))
    (hl : collect l f s₁ = (.ok xs, s₂)) : collect (a :: l) f s = (.ok (x.toList ++ xs), s₂) := by
  rw [collect, bind_ok _ ha, bind_ok _ hl, pure_apply]

theorem collect_cons_error {f : β → Script ε σ (Option γ)} (ha : f a s = (.error e, s')) :
    collect (a :: l) f s = (.error e, s') := by
  rw [collect, bind_error _ ha]

theorem collect_cons_later {f : β → Script ε σ (Option γ)} (ha : f a s = (.ok x, s₁))
    (hl : collect l f s₁ = (.error e, s₂)) : collect (a :: l) f s = (.error e, s₂) := by
  rw [collect, bind_ok _ ha, bind_error _ hl]

theorem tryExcept_ok {m : Script ε σ α} {h : ε → Option (Script ε σ α)}
    (hm : m s = (.ok a, s')) : tryExcept m h s = (.ok a, s') := by
  rw [tryExcept, hm]

theorem tryExcept_error {m k : Script ε σ α} {h : ε → Option (Script ε σ α)}
    (hm : m s = (.error e, s')) (hk : h e = some k) : tryExcept m h s = k s' := by
  simp only [tryExcept, hm, hk]

theorem tryFinally_ok {m : Script ε σ α} {cleanup : Script ε σ Unit}
    (h : cleanup (m s).2 = (.ok (), s')) : tryFinally m cleanup s = ((m s).1, s') := by
  rw [tryFinally, h]

theorem tryFinally_error {m : Script ε σ α} {cleanup : Script ε σ Unit}
    (h : cleanup (m s).2 = (.error e, s')) : tryFinally m cleanup s = (.error e, s') := by
  rw [tryFinally, h]

end Script

end Prog

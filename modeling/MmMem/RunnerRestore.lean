import MmMem.RunnerInvariant

namespace MmMem
open Prog
set_option autoImplicit true

/-- The world in which control enters the `finally` clause, if it does. -/
def finallyEntry (env : Env HostPath) (m : Machine) (args : Args) (w : World HostPath) :
    Option (World HostPath) :=
  match preflight env m args w with
  | (.ok (matrices, autonuma, privilege), w') =>
    some (tryBlock env m args matrices autonuma privilege { w' with phase := .body, step := 0 }).2
  | (.error _, _) => none

variable {env : Env HostPath} {m : Machine} {args : Args} {w w' w₁ : World HostPath}
  {initial : HostPath → Int}

theorem main_entered (h : finallyEntry env m args w = some w₁) :
    (main env m args w).2 = (finallyBlock env args w₁).2 ∧
      ∀ e, (finallyBlock env args w₁).1 = .error e → (main env m args w).1 = .error e := by
  rw [finallyEntry] at h
  cases hp : preflight env m args w with
  | mk r w' =>
    rw [hp] at h
    cases r with
    | error e => cases h
    | ok found =>
      obtain ⟨matrices, autonuma, privilege⟩ := found
      obtain rfl := Option.some.inj h
      rw [main, Script.bind_ok _ hp]
      dsimp only
      rw [Script.bind_ok _ (Script.modify_apply ..)]
      generalize hw : ({ w' with phase := .body, step := 0 } : World HostPath) = w₀
      generalize tryBlock env m args matrices autonuma privilege = block
      cases hf : finallyBlock env args (block w₀).2 with
      | mk o w'' =>
        cases o with
        | error e =>
          rw [Script.bind_error _ (Script.tryFinally_error hf)]
          refine ⟨rfl, fun _ he => ?_⟩
          cases he
          rfl
        | ok u =>
          refine ⟨?_, fun _ he => nomatch he⟩
          have hb := Script.tryFinally_ok hf
          cases hr : (block w₀).1 with
          | error e => rw [Script.bind_error _ (hr ▸ hb)]
          | ok u => rw [Script.bind_ok _ (hr ▸ hb), Script.pure_apply]

theorem main_not_entered (h : finallyEntry env m args w = none) :
    (main env m args w).2 = (preflight env m args w).2 := by
  rw [finallyEntry] at h
  cases hp : preflight env m args w with
  | mk r w' =>
    rw [hp] at h
    cases r with
    | error e => rw [main, Script.bind_error _ hp]
    | ok found => cases h

/-- Nothing of the `finally` clause has happened yet. -/
structure BeforeCleanup (w : World HostPath) : Prop where
  handlers : w.ignored = fun _ => false
  phase : w.phase ≠ .cleanup
  log : ∀ ev ∈ w.log, ev.1 ≠ .cleanup

theorem BeforeCleanup.hostBlind : HostBlind BeforeCleanup where
  step _ _ h := ⟨h.handlers, h.phase, h.log⟩
  record w e h := ⟨h.handlers, h.phase, fun ev hev => by
    rcases List.mem_cons.1 hev with rfl | hev
    · exact h.phase
    · exact h.log ev hev⟩
  withHost _ _ h := ⟨h.handlers, h.phase, h.log⟩

theorem BeforeCleanup.start (initial : HostPath → Int) : BeforeCleanup (.start initial) :=
  ⟨rfl, Phase.noConfusion, fun _ h => absurd h List.not_mem_nil⟩

/-- The host before the `try` statement: unchanged files, nothing recorded. -/
def Untouched (initial : HostPath → Int) (w : World HostPath) : Prop :=
  (∃ privilege, w.host = .fresh initial privilege) ∧ BeforeCleanup w

theorem preflight_fresh (env : Env HostPath) (m : Machine) (args : Args) :
    Script.Keeps (Untouched initial) (preflight env m args) := by
  have hb := BeforeCleanup.hostBlind
  refine preflight_keeps ⟨fun w n h => ⟨h.1, hb.step w n h.2⟩,
    fun w e h => ⟨h.1, hb.record w e h.2⟩⟩ ?_ m args
  rintro w privilege ⟨⟨p, hw⟩, h⟩
  exact ⟨⟨privilege, by rw [hw]; rfl⟩, hb.withHost w _ h⟩

theorem finallyEntry_recoverable (h : finallyEntry env m args (.start initial) = some w₁) :
    Recoverable HostPath.owner initial w₁.host ∧ BeforeCleanup w₁ := by
  have hpre := preflight_fresh env m args (.start initial) ⟨⟨none, rfl⟩, .start initial⟩
  rw [finallyEntry] at h
  cases hp : preflight env m args (.start initial) with
  | mk r w' =>
    rw [hp] at h hpre
    cases r with
    | error e => cases h
    | ok found =>
      obtain ⟨matrices, autonuma, privilege⟩ := found
      obtain rfl := Option.some.inj h
      obtain ⟨⟨privilege', hw⟩, hbefore⟩ := hpre
      have hrec : Recoverable HostPath.owner initial w'.host := hw ▸ .fresh _ _ _
      constructor
      · have hsteady := Steady.recoverable env initial
        exact (hsteady.tryBlock m args matrices autonuma privilege).state hrec
      · have hsteady : Steady env BeforeCleanup := BeforeCleanup.hostBlind.steady
        exact (hsteady.tryBlock m args matrices autonuma privilege).state
          ⟨hbefore.handlers, Phase.noConfusion, hbefore.log⟩

/-- What restoring these transactions has done since `w`. -/
structure Restored (initial : HostPath → Int) (w : World HostPath) (ts : List Transaction)
    (failed : List Unit) (new : List (Phase × Event HostPath)) (w' : World HostPath) : Prop where
  reached : Reached w new w'
  recoverable : Recoverable HostPath.owner initial w'.host
  phases : ∀ ev ∈ new, ev.1 = w.phase
  brought : ∀ t ∈ ts, ∀ p, p.owner = some t → failedOn new p = false →
    w'.host.files p = initial p
  others : ∀ p, (∀ t ∈ ts, p.owner ≠ some t) → w'.host.files p = w.host.files p
  elsewhere : ∀ t, t ∉ ts → w'.host.transaction t = w.host.transaction t
  done : ∀ t ∈ ts, (w.phase, .restored t) ∈ new
  attempted : ∀ t ∈ ts, ∀ e ∈ (w.host.transaction t).original,
    ∃ b, (w.phase, .read e.1 b) ∈ new
  outcome : failed = [] ↔ allOk new = true

theorem restoreTransaction_restored (hu : Uninterrupted env w) (t : Transaction)
    (hr : Recoverable HostPath.owner initial w.host) :
    ∃ x new w', restoreTransaction env t w = (.ok x, w') ∧
      Restored initial w [t] x.toList new w' := by
  obtain ⟨o, new, w', heq, hrep, ho⟩ := restore_report hu (hr.nodup t)
  have hkeeps : Script.Keeps (OnHost (Recoverable HostPath.owner initial))
      (KernelSettings.restore env t) := restore_recoverable
  have hrec := hkeeps.state hr
  rw [heq] at hrec
  have hdone : ∀ x : Option Unit, (x.toList = [] ↔ allOk new = true) →
      Restored initial w [t] x.toList ((w.phase, .restored t) :: new)
        (w'.record (.restored t)) := fun x hx => {
    reached := ⟨by rw [World.record, hrep.reached.log, hrep.reached.phase]; rfl,
      hrep.reached.phase, hrep.reached.ignored⟩
    recoverable := hrec
    phases := fun ev hev => by
      rcases List.mem_cons.1 hev with rfl | hev
      · rfl
      · exact (hrep.about ev hev).1
    brought := fun s hs p hp hfine => by
      obtain rfl := List.mem_singleton.1 hs
      exact hrep.brought hr hp hfine
    others := fun p hp => hrep.others p fun e he heq =>
      hp t (List.mem_singleton_self t) (heq ▸ (hr.recorded t e (List.mem_reverse.1 he)).1)
    elsewhere := fun s hs => hrep.elsewhere s fun heq => hs (heq ▸ List.mem_singleton_self t)
    done := fun s hs => List.mem_singleton.1 hs ▸ List.mem_cons_self
    attempted := fun s hs e he => by
      obtain rfl := List.mem_singleton.1 hs
      obtain ⟨b, hb⟩ := hrep.attempted e (List.mem_reverse.2 he)
      exact ⟨b, List.mem_cons_of_mem _ hb⟩
    outcome := by rw [hx]; rfl }
  rcases ho with ⟨rfl, hok⟩ | ⟨⟨message, rfl⟩, hbad⟩
  · exact ⟨none, _, _, Script.tryExcept_ok (Script.bind_ok _ heq), hdone none (iff_of_true rfl hok)⟩
  · refine ⟨some (), _, _, Script.tryExcept_error (Script.bind_error _ heq) rfl, hdone (some ()) ?_⟩
    refine iff_of_false (List.cons_ne_nil _ _) ?_
    rw [hbad]
    exact Bool.false_ne_true

theorem Restored.nil (hr : Recoverable HostPath.owner initial w.host) :
    Restored initial w [] [] [] w where
  reached := .refl w
  recoverable := hr
  phases _ h := absurd h List.not_mem_nil
  brought _ h := absurd h List.not_mem_nil
  others _ _ := rfl
  elsewhere _ _ := rfl
  done _ h := absurd h List.not_mem_nil
  attempted _ h := absurd h List.not_mem_nil
  outcome := iff_of_true rfl rfl

theorem Restored.cons {t : Transaction} {ts : List Transaction} {failed failed' : List Unit}
    {new new' : List (Phase × Event HostPath)} (h : Restored initial w [t] failed new w₁)
    (h' : Restored initial w₁ ts failed' new' w') (ht : t ∉ ts) :
    Restored initial w (t :: ts) (failed ++ failed') (new' ++ new) w' where
  reached := h.reached.trans h'.reached
  recoverable := h'.recoverable
  phases ev hev := by
    rcases List.mem_append.1 hev with hev | hev
    · exact (h'.phases ev hev).trans h.reached.phase
    · exact h.phases ev hev
  brought s hs p hp hfine := by
    rw [failedOn_append, Bool.or_eq_false_iff] at hfine
    rcases List.mem_cons.1 hs with rfl | hs
    · rw [h'.others p fun s' hs' heq => ht (Option.some.inj (hp.symm.trans heq) ▸ hs')]
      exact h.brought s (List.mem_singleton_self s) p hp hfine.2
    · exact h'.brought s hs p hp hfine.1
  others p hp := by
    rw [h'.others p fun s hs => hp s (List.mem_cons_of_mem t hs),
      h.others p fun s hs => List.mem_singleton.1 hs ▸ hp t List.mem_cons_self]
  elsewhere s hs := by
    rw [h'.elsewhere s fun hmem => hs (List.mem_cons_of_mem t hmem),
      h.elsewhere s fun hmem => hs (List.mem_singleton.1 hmem ▸ List.mem_cons_self)]
  done s hs := by
    rcases List.mem_cons.1 hs with rfl | hs
    · exact List.mem_append_right _ (h.done s (List.mem_singleton_self s))
    · exact List.mem_append_left _ (h.reached.phase ▸ h'.done s hs)
  attempted s hs e he := by
    rcases List.mem_cons.1 hs with rfl | hs
    · obtain ⟨b, hb⟩ := h.attempted s (List.mem_singleton_self s) e he
      exact ⟨b, List.mem_append_right _ hb⟩
    · rw [← h.elsewhere s fun hmem => ht (List.mem_singleton.1 hmem ▸ hs)] at he
      obtain ⟨b, hb⟩ := h'.attempted s hs e he
      exact ⟨b, List.mem_append_left _ (h.reached.phase ▸ hb)⟩
  outcome := by
    rw [List.append_eq_nil_iff, h.outcome, h'.outcome, allOk_append, Bool.and_eq_true, and_comm]

/-- The loop of the `finally` clause: no failure keeps it from the next transaction. -/
theorem restore_all (hu : Uninterrupted env w) {ts : List Transaction} (hts : ts.Nodup)
    (hr : Recoverable HostPath.owner initial w.host) :
    ∃ failed new w', Script.collect ts (restoreTransaction env) w = (.ok failed, w') ∧
      Restored initial w ts failed new w' := by
  induction ts generalizing w with
  | nil => exact ⟨[], [], w, rfl, .nil hr⟩
  | cons t ts ih =>
    obtain ⟨ht, hts⟩ := List.nodup_cons.1 hts
    obtain ⟨x, new, w₁, hstep, h⟩ := restoreTransaction_restored hu t hr
    obtain ⟨failed, new', w', hloop, h'⟩ := ih (hu.reached h.reached) hts h.recoverable
    exact ⟨_, _, w', Script.collect_cons_ok hstep hloop, h.cons h' ht⟩

end MmMem

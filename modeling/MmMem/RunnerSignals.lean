import MmMem.RunnerCleanup

namespace MmMem
open Prog
set_option autoImplicit true

/-- The restorations have run: both loops have ended, having tried every path recorded in `w`. -/
def RestorationRan (w : World HostPath) (log : List (Phase × Event HostPath)) : Prop :=
  ∀ t, (.cleanup, .restored t) ∈ log ∧
    ∀ e ∈ (w.host.transaction t).original, ∃ b, (.cleanup, .read e.1 b) ∈ log

/-- Where no signal stops the restorations: none arrives before it is masked or, on a dry run,
which masks none, before both restorations are over. -/
def Spared (env : Env HostPath) (args : Args) : Prop :=
  QuietEntry env args ∧ (args.dryRun = true →
    (env.signals .cleanup 2 = [] ∧ env.signals .cleanup 3 = []) ∧
      env.signals .cleanup 4 = [] ∧ env.signals .cleanup 5 = [])

variable {env : Env HostPath} {m : Machine} {args : Args} {w w' w₁ : World HostPath}
  {initial : HostPath → Int} {t : Transaction}

theorem Restored.ran (h : Restored initial w [.hugeSettings, .settings] failed new w')
    (hph : w.phase = .cleanup) : RestorationRan w w'.log := by
  intro t
  rw [h.reached.log, ← hph]
  refine ⟨List.mem_append_left _ (h.done t t.mem_all), fun e he => ?_⟩
  obtain ⟨b, hb⟩ := h.attempted t t.mem_all e he
  exact ⟨b, List.mem_append_left _ hb⟩

/-- Nothing has been recorded. -/
abbrev Unrecorded (h : Host HostPath) : Prop := ∀ t, (h.transaction t).original = []

theorem preflight_unrecorded (env : Env HostPath) (m : Machine) (args : Args) :
    Script.Keeps (OnHost Unrecorded) (preflight env m args) :=
  preflight_keeps (.onHost Unrecorded) (fun _ _ _ _ => rfl) m args

theorem finallyEntry_dryRun (hd : args.dryRun = true)
    (h : finallyEntry env m args (.start initial) = some w) : Unrecorded w.host := by
  have hpre := preflight_unrecorded env m args (.start initial) fun _ => rfl
  rw [finallyEntry] at h
  cases hp : preflight env m args (.start initial) with
  | mk r w' =>
    rw [hp] at h hpre
    cases r with
    | error e => cases h
    | ok found =>
      obtain ⟨matrices, autonuma, privilege⟩ := found
      obtain rfl := Option.some.inj h
      have hblock : Script.Keeps (OnHost Unrecorded)
          (tryBlock env m args matrices autonuma privilege) := by
        apply (boundary_keeps (.onHost _)).bind
        intro _
        rw [configureHost, if_pos hd]
        apply (boundary_keeps (.onHost _)).bind
        intro _
        exact runTests_keeps (.onHost _) _ _ _ _ _ _
      exact hblock.state hpre

theorem interruptedAt_unmasked (j : Nat) :
    interruptedAt env (w.cleanupAt k []) j = !(env.signals .cleanup j).isEmpty := by
  rw [interruptedAt]
  change (env.signals .cleanup j).any (fun _ => true) = _
  cases env.signals .cleanup j with
  | nil => rfl
  | cons s l => rfl

/-- With nothing recorded and nothing masked, only the boundaries can stop a restoration. -/
theorem restoreTransaction_empty (h : (w.host.transaction t).original = []) (k : Nat)
    (hk : env.signals .cleanup k = [] ∧ env.signals .cleanup (k + 1) = []) :
    restoreTransaction env t (w.cleanupAt k []) =
      (.ok none, (w.cleanupAt (k + 2) []).record (.restored t)) := by
  have hrun := restore_empty (w := w.cleanupAt k []) env h
  rw [interruptedAt_unmasked, interruptedAt_unmasked] at hrun
  simp only [World.cleanupAt, hk.1, hk.2, List.isEmpty_nil, Bool.not_true, Bool.false_eq_true,
    if_false] at hrun
  exact Script.tryExcept_ok (Script.bind_ok _ hrun)

theorem restoreTransaction_cut (h : (w.host.transaction t).original = []) (k : Nat)
    (hk : ¬ (env.signals .cleanup k = [] ∧ env.signals .cleanup (k + 1) = [])) :
    ∃ w', restoreTransaction env t (w.cleanupAt k []) = (.error .keyboardInterrupt, w') ∧
      w'.log = w.log := by
  have hrun := restore_empty (w := w.cleanupAt k []) env h
  rw [interruptedAt_unmasked, interruptedAt_unmasked] at hrun
  have hcut : ∀ w', KernelSettings.restore env t (w.cleanupAt k []) =
      (.error .keyboardInterrupt, w') → restoreTransaction env t (w.cleanupAt k []) =
        (.error .keyboardInterrupt, w') := fun w' hw => by
    rw [restoreTransaction, Script.tryExcept, Script.bind_error _ hw]
    rfl
  by_cases h₀ : env.signals .cleanup k = []
  · have h₁ : env.signals .cleanup (k + 1) ≠ [] := fun h₁ => hk ⟨h₀, h₁⟩
    simp only [World.cleanupAt, h₀, List.isEmpty_nil, List.isEmpty_eq_false_iff.2 h₁, Bool.not_true,
      Bool.not_false, Bool.false_eq_true, if_false, if_true] at hrun
    exact ⟨_, hcut _ hrun, rfl⟩
  · simp only [World.cleanupAt, List.isEmpty_eq_false_iff.2 h₀, Bool.not_false, if_true] at hrun
    exact ⟨_, hcut _ hrun, rfl⟩

theorem uninterrupted_masked : Uninterrupted env (w.cleanupAt k [.sigterm, .sigint]) := by
  refine fun j => List.any_eq_false.2 fun s _ => ?_
  cases s <;> exact Bool.false_ne_true

theorem not_ran_of_log (hb : BeforeCleanup w) (hlog : log = w.log) : ¬ RestorationRan w log := by
  intro hran
  exact hb.log _ (hlog ▸ (hran .settings).1) rfl

theorem spared_of_ran (hb : BeforeCleanup w) (hdry : args.dryRun = true → Unrecorded w.host)
    (hran : RestorationRan w (finallyBlock env args w).2.log) : Spared env args := by
  by_cases hq : QuietEntry env args
  swap
  · obtain ⟨w', he, hlog⟩ := enterCleanup_interrupted hb.handlers hq
    rw [finallyBlock, Script.bind_error _ he] at hran
    exact absurd hran (not_ran_of_log hb hlog)
  refine ⟨hq, fun hd => ?_⟩
  have hempty := hdry hd
  obtain ⟨previous, he⟩ := enterCleanup_quiet hb.handlers hq
  rw [show args.masked = [] from if_pos hd] at he
  by_cases h₂ : env.signals .cleanup 2 = [] ∧ env.signals .cleanup 3 = []
  swap
  · obtain ⟨w', hcut, hlog⟩ := restoreTransaction_cut (hempty .hugeSettings) 2 h₂
    have hafter := finallyBlock_after he (Script.collect_cons_error hcut)
    exact absurd hran (not_ran_of_log hb (hafter.2.trans hlog))
  refine ⟨h₂, ?_⟩
  by_contra h₄
  -- the second restoration is cut short, so only the first one is in the log
  have hstep := restoreTransaction_empty (hempty .hugeSettings) 2 h₂
  obtain ⟨w', hcut, hlog⟩ := restoreTransaction_cut
    (w := { w with log := (.cleanup, .restored .hugeSettings) :: w.log }) (hempty .settings) 4 h₄
  have hafter := finallyBlock_after he
    (Script.collect_cons_later hstep (Script.collect_cons_error hcut))
  have hmem := (hran .settings).1
  rw [hafter.2, hlog] at hmem
  rcases List.mem_cons.1 hmem with heq | hmem
  · cases heq
  · exact hb.log _ hmem rfl

theorem ran_of_spared (hb : BeforeCleanup w) (hr : Recoverable HostPath.owner initial w.host)
    (hdry : args.dryRun = true → Unrecorded w.host) (hs : Spared env args) :
    RestorationRan w (finallyBlock env args w).2.log := by
  obtain ⟨hq, hquiet⟩ := hs
  obtain ⟨previous, he⟩ := enterCleanup_quiet hb.handlers hq
  cases hd : args.dryRun with
  | false =>
    rw [show args.masked = [.sigint, .sigterm] from if_neg (hd ▸ Bool.false_ne_true)] at he
    obtain ⟨failed, new, w', hc, hres⟩ := restore_all uninterrupted_masked
      (show [Transaction.hugeSettings, .settings].Nodup by decide) hr
    rw [(finallyBlock_after he hc).2]
    exact hres.ran rfl
  | true =>
    have hempty := hdry hd
    obtain ⟨h₂, h₄⟩ := hquiet hd
    rw [show args.masked = [] from if_pos hd] at he
    have hstep := restoreTransaction_empty (hempty .hugeSettings) 2 h₂
    have hstep' := restoreTransaction_empty
      (w := { w with log := (.cleanup, .restored .hugeSettings) :: w.log }) (hempty .settings) 4 h₄
    have hafter := finallyBlock_after he
      (Script.collect_cons_ok hstep (Script.collect_cons_ok hstep' rfl))
    intro t
    rw [hafter.2, hempty t]
    refine ⟨?_, fun e hmem => absurd hmem List.not_mem_nil⟩
    cases t with
    | settings => exact List.mem_cons_self
    | hugeSettings => exact List.mem_cons_of_mem _ List.mem_cons_self

/-- The restorations run to completion exactly if no signal arrives where it still counts. -/
theorem restoration_runs_iff (env : Env HostPath) (m : Machine) (args : Args)
    (initial : HostPath → Int) (w : World HostPath)
    (h : finallyEntry env m args (.start initial) = some w) :
    RestorationRan w (main env m args (.start initial)).2.log ↔ Spared env args := by
  obtain ⟨hr, hb⟩ := finallyEntry_recoverable h
  have hdry : args.dryRun = true → Unrecorded w.host := fun hd => finallyEntry_dryRun hd h
  rw [(main_entered h).1]
  exact ⟨spared_of_ran hb hdry, ran_of_spared hb hr hdry⟩

/-- A SIGTERM once SIGTERM is masked. -/
theorem restoration_runs_iff_masked :
    let env : Env HostPath := ⟨fun phase k => if phase = .cleanup ∧ k = 4 then [.sigterm] else [],
      fun _ _ => none, fun _ _ => .takes, fun _ _ => none, fun _ => "nr_hugepages"⟩
    let m : Machine := ⟨true, true, false, false, 4, fun _ => true, id, [⟨0, some 4194304, [2048]⟩]⟩
    let args : Args := ⟨⟨2, by decide⟩, [.idleLatency], none, none, false, .auto, false, false,
      false, false⟩
    let files : HostPath → Int := fun p => if p = .numaBalancing then 1 else 0
    ∃ w, finallyEntry env m args (.start files) = some w ∧
      RestorationRan w (main env m args (.start files)).2.log := by
  intro env m args files
  have hsome : (finallyEntry env m args (.start files)).isSome := by decide +kernel
  have hspared : Spared env args := ⟨⟨rfl, rfl, fun _ => ⟨rfl, List.not_mem_nil⟩⟩, Bool.noConfusion⟩
  obtain ⟨w, hw⟩ := Option.isSome_iff_exists.1 hsome
  exact ⟨w, hw, (restoration_runs_iff env m args files w hw).2 hspared⟩

/-- A SIGINT on entering the `finally` clause: NUMA balancing is recorded and stays off. -/
theorem restoration_cut_short :
    let env : Env HostPath := ⟨fun phase k => if phase = .cleanup ∧ k = 0 then [.sigint] else [],
      fun _ _ => none, fun _ _ => .takes, fun _ _ => none, fun _ => "nr_hugepages"⟩
    let m : Machine := ⟨true, true, false, false, 4, fun _ => true, id, [⟨0, some 4194304, [2048]⟩]⟩
    let args : Args := ⟨⟨2, by decide⟩, [.idleLatency], none, none, false, .auto, false, false,
      false, false⟩
    let files : HostPath → Int := fun p => if p = .numaBalancing then 1 else 0
    (main env m args (.start files)).2.host.files .numaBalancing = 0 ∧
      ∃ w, finallyEntry env m args (.start files) = some w ∧
        (w.host.transaction .settings).original = [(.numaBalancing, 1)] ∧
        ¬ RestorationRan w (main env m args (.start files)).2.log := by
  intro env m args files
  have hrecorded : (finallyEntry env m args (.start files)).map
      (fun w => (w.host.transaction .settings).original) = some [(.numaBalancing, 1)] := by
    decide +kernel
  have hlog : (.cleanup, .restored .settings) ∉ (main env m args (.start files)).2.log := by
    decide +kernel
  obtain ⟨w, hw, hw'⟩ := Option.map_eq_some_iff.1 hrecorded
  exact ⟨by decide +kernel, w, hw, hw', fun h => hlog (h .settings).1⟩

end MmMem

import MmMem.RunnerRestore

namespace MmMem
open Prog
set_option autoImplicit true

/-- No signal arrives between entering the `finally` clause and being masked there. -/
def QuietEntry (env : Env HostPath) (args : Args) : Prop :=
  env.signals .cleanup 0 = [] ∧ env.signals .cleanup 1 = [] ∧
    (args.dryRun = false → env.signals .cleanup 2 = [] ∧ .sigterm ∉ env.signals .cleanup 3)

variable {env : Env HostPath} {m : Machine} {args : Args} {w w' w₁ : World HostPath}
  {initial : HostPath → Int}

/-- The world `k` statements into the `finally` clause, with these signals masked. -/
def World.cleanupAt (w : World HostPath) (k : Nat) (masked : List Signal) : World HostPath :=
  { w with phase := .cleanup, step := k, ignored := fun s => masked.contains s }

theorem boundary_passes (h : ∀ s ∈ env.signals .cleanup k, s ∈ masked) :
    boundary env (w.cleanupAt k masked) = (.ok (), w.cleanupAt (k + 1) masked) := by
  apply boundary_passed
  refine List.any_eq_false.2 fun s hs => ?_
  simpa only [World.cleanupAt, Bool.not_eq_true', Bool.not_eq_false, List.contains_iff_mem]
    using h s hs

theorem boundary_stops (h : s ∈ env.signals .cleanup k) (hs : s ∉ masked) :
    boundary env (w.cleanupAt k masked) =
      (.error .keyboardInterrupt, w.cleanupAt (k + 1) masked) := by
  apply boundary_stopped
  refine List.any_eq_true.2 ⟨s, h, ?_⟩
  simpa only [World.cleanupAt, Bool.not_eq_true', Bool.eq_false_iff, ne_eq,
    List.contains_iff_mem] using hs

theorem mask_passes (h : ∀ s ∈ env.signals .cleanup k, s ∈ masked) (sig : Signal) :
    mask env sig (w.cleanupAt k masked) =
      (.ok (some (sig, masked.contains sig)), w.cleanupAt (k + 1) (sig :: masked)) := by
  have hig : Function.update (fun s => masked.contains s) sig true =
      fun s => (sig :: masked).contains s := by
    funext s
    by_cases hs : s = sig
    · subst hs
      rw [Function.update_self, List.contains_cons, beq_self_eq_true, Bool.true_or]
    · rw [Function.update_of_ne hs, List.contains_cons, beq_eq_false_iff_ne.2 hs, Bool.false_or]
  rw [mask, Script.bind_ok _ (boundary_passes h), Script.bind_ok _ (Script.get_apply _),
    Script.bind_ok _ (Script.modify_apply ..)]
  simp only [World.cleanupAt, hig, Script.pure_apply]

theorem mask_stops (h : s ∈ env.signals .cleanup k) (hs : s ∉ masked) (sig : Signal) :
    mask env sig (w.cleanupAt k masked) =
      (.error .keyboardInterrupt, w.cleanupAt (k + 1) masked) := by
  rw [mask, Script.bind_error _ (boundary_stops h hs)]

theorem enterCleanup_start (hig : w.ignored = fun _ => false) :
    enterCleanup env args w =
      (boundary env >>= fun _ => boundary env >>= fun _ => Script.collect args.masked (mask env))
        (w.cleanupAt 0 []) := by
  rw [enterCleanup, Script.bind_ok _ (Script.modify_apply ..)]
  simp only [World.cleanupAt, hig, List.contains_nil]

/-- Entered quietly, the `finally` clause goes on with its signals masked. -/
theorem enterCleanup_quiet (hig : w.ignored = fun _ => false) (hq : QuietEntry env args) :
    ∃ previous, enterCleanup env args w =
      (.ok previous, w.cleanupAt (2 + args.masked.length) args.masked.reverse) := by
  obtain ⟨h₀, h₁, hmask⟩ := hq
  rw [enterCleanup_start hig, Script.bind_ok _ (boundary_passes (by simp [h₀])),
    Script.bind_ok _ (boundary_passes (by simp [h₁]))]
  cases hd : args.dryRun with
  | true =>
    rw [show args.masked = [] from if_pos hd]
    exact ⟨_, rfl⟩
  | false =>
    obtain ⟨h₂, h₃⟩ := hmask hd
    have hterm : ∀ s ∈ env.signals .cleanup 3, s ∈ [Signal.sigint] := fun s hs => by
      cases s with
      | sigint => exact List.mem_singleton_self _
      | sigterm => exact absurd hs h₃
    rw [show args.masked = [.sigint, .sigterm] from if_neg (hd ▸ Bool.false_ne_true)]
    exact ⟨_, Script.collect_cons_ok (mask_passes (by simp [h₂]) _)
      (Script.collect_cons_ok (mask_passes hterm _) rfl)⟩

theorem enterCleanup_interrupted (hig : w.ignored = fun _ => false)
    (hq : ¬ QuietEntry env args) :
    ∃ w', enterCleanup env args w = (.error .keyboardInterrupt, w') ∧ w'.log = w.log := by
  rw [enterCleanup_start hig]
  by_cases h₀ : env.signals .cleanup 0 = []
  swap
  · obtain ⟨s, hs⟩ := List.exists_mem_of_ne_nil _ h₀
    exact ⟨_, Script.bind_error _ (boundary_stops hs List.not_mem_nil), rfl⟩
  rw [Script.bind_ok _ (boundary_passes (by simp [h₀]))]
  by_cases h₁ : env.signals .cleanup 1 = []
  swap
  · obtain ⟨s, hs⟩ := List.exists_mem_of_ne_nil _ h₁
    exact ⟨_, Script.bind_error _ (boundary_stops hs List.not_mem_nil), rfl⟩
  rw [Script.bind_ok _ (boundary_passes (by simp [h₁]))]
  have hd : args.dryRun = false := by
    cases hd : args.dryRun with
    | false => rfl
    | true => exact absurd ⟨h₀, h₁, fun h => absurd (hd.symm.trans h) Bool.true_eq_false.mp⟩ hq
  rw [show args.masked = [.sigint, .sigterm] from if_neg (hd ▸ Bool.false_ne_true)]
  by_cases h₂ : env.signals .cleanup 2 = []
  swap
  · obtain ⟨s, hs⟩ := List.exists_mem_of_ne_nil _ h₂
    exact ⟨_, Script.collect_cons_error (mask_stops hs List.not_mem_nil _), rfl⟩
  have h₃ : .sigterm ∈ env.signals .cleanup 3 := by
    by_contra hterm
    exact hq ⟨h₀, h₁, fun _ => ⟨h₂, hterm⟩⟩
  exact ⟨_, Script.collect_cons_later (mask_passes (by simp [h₂]) _)
    (Script.collect_cons_error (mask_stops h₃ (by decide) _)), rfl⟩

/-- The same host and the same log. -/
def Alike (w₀ w : World HostPath) : Prop := w.host = w₀.host ∧ w.log = w₀.log

theorem boundary_alike (w₀ : World HostPath) : Script.Keeps (Alike w₀) (boundary env) := by
  intro w hw
  rw [boundary_apply]
  split
  · exact hw
  · exact hw

theorem unmask_alike (env : Env HostPath) (previous : List (Signal × Bool))
    (w₀ : World HostPath) : Script.Keeps (Alike w₀) (unmask env previous) :=
  Script.Keeps.forEach fun _ _ => (boundary_alike w₀).bind fun _ _ hw => hw

/-- Once the loop of the `finally` clause has ended, what it did stands. -/
theorem finallyBlock_after (he : enterCleanup env args w = (.ok previous, w₁))
    (hc : Script.collect [.hugeSettings, .settings] (restoreTransaction env) w₁ = (o, w')) :
    Alike w' (finallyBlock env args w).2 := by
  rw [finallyBlock, Script.bind_ok _ he]
  have hloop : Script.Meets (· = w₁)
      (Script.collect [.hugeSettings, .settings] (restoreTransaction env))
      (fun _ => Alike w') fun _ => Alike w' := by
    rintro _ rfl
    rw [hc]
    cases o with
    | ok failed => exact ⟨rfl, rfl⟩
    | error e => exact ⟨rfl, rfl⟩
  refine (Script.Meets.bind (hloop.tryFinally (unmask_alike env previous w'))
    (fun failed => ?_) w₁ rfl).state
  apply (boundary_alike w').bind
  intro _
  split
  · exact Script.Keeps.raise _ _
  · exact Script.Keeps.pure _ _

theorem unmask_quiet (hs : ∀ k, env.signals .cleanup k = []) (hph : w.phase = .cleanup)
    (previous : List (Signal × Bool)) :
    ∃ w', unmask env previous w = (.ok (), w') ∧ w'.phase = .cleanup := by
  induction previous generalizing w with
  | nil => exact ⟨w, rfl, hph⟩
  | cons entry previous ih =>
    have hb : interruptedAt env w w.step = false := by rw [interruptedAt, hph, hs]; rfl
    obtain ⟨w', heq, hw'⟩ := ih (w := { w with
      step := w.step + 1
      ignored := Function.update w.ignored entry.1 entry.2 }) hph
    refine ⟨w', ?_, hw'⟩
    rw [unmask, Script.forEach, Script.bind_ok (a := ()) _ ?_]
    · exact heq
    · rw [Script.bind_ok _ (boundary_passed hb)]
      rfl

theorem finallyBlock_failed (hs : ∀ k, env.signals .cleanup k = [])
    (he : enterCleanup env args w = (.ok previous, w₁))
    (hc : Script.collect [.hugeSettings, .settings] (restoreTransaction env) w₁ =
      (.ok failed, w')) (hph : w'.phase = .cleanup) (hf : failed ≠ []) :
    ∃ message, (finallyBlock env args w).1 = .error (.error .runtimeError message) := by
  obtain ⟨w₂, hun, hph₂⟩ := unmask_quiet hs hph previous
  have hb : interruptedAt env w₂ w₂.step = false := by rw [interruptedAt, hph₂, hs]; rfl
  have ht : Script.tryFinally (Script.collect [.hugeSettings, .settings] (restoreTransaction env))
      (unmask env previous) w₁ = (.ok failed, w₂) := by
    rw [Script.tryFinally_ok (by rw [hc]; exact hun), hc]
  rw [finallyBlock, Script.bind_ok _ he, Script.bind_ok _ ht,
    Script.bind_ok _ (boundary_passed hb), if_pos hf]
  exact ⟨_, rfl⟩

theorem HostPath.owner_of_restorable {p : HostPath}
    (hp : p = .numaBalancing ∨ ∃ nid size, p = .nrHugepages nid size) :
    ∃ t, p.owner = some t := by
  rcases hp with rfl | ⟨nid, size, rfl⟩
  · exact ⟨_, rfl⟩
  · exact ⟨_, rfl⟩

theorem Transaction.mem_all (t : Transaction) : t ∈ [Transaction.hugeSettings, .settings] := by
  cases t <;> decide

/-- Whatever fails or interrupts the run before its `finally` clause, every setting whose
accesses during the final restoration all succeed holds its value from before the run, and a
failed access makes `main` raise. -/
theorem runner_restores_host (env : Env HostPath) (m : Machine) (args : Args)
    (initial : HostPath → Int) (hs : ∀ k, env.signals .cleanup k = []) :
    let r := main env m args (.start initial)
    (∀ p, (p = .numaBalancing ∨ ∃ nid size, p = .nrHugepages nid size) →
      (∀ ev ∈ r.2.log, ev.1 = .cleanup → ev.2.path? = some p → ev.2.ok = true) →
      r.2.host.files p = initial p) ∧
    ((∃ ev ∈ r.2.log, ev.1 = .cleanup ∧ ev.2.ok = false) →
      ∃ message, r.1 = .error (.error .runtimeError message)) := by
  intro r
  cases hentry : finallyEntry env m args (.start initial) with
  | none =>
    have hpre := (preflight_fresh env m args).state
      (⟨⟨none, rfl⟩, .start initial⟩ : Untouched initial _)
    obtain ⟨⟨privilege, hhost⟩, hb⟩ := hpre
    rw [← main_not_entered hentry] at hhost hb
    refine ⟨fun p _ _ => by rw [hhost]; rfl, fun ⟨ev, hev, hph, _⟩ => ?_⟩
    exact absurd hph (hb.log ev hev)
  | some w =>
    obtain ⟨hr, hb⟩ := finallyEntry_recoverable hentry
    obtain ⟨hstate, herror⟩ := main_entered hentry
    have hlast : Signal.sigterm ∉ env.signals .cleanup 3 := by
      rw [hs 3]
      exact List.not_mem_nil
    have hq : QuietEntry env args := ⟨hs 0, hs 1, fun _ => ⟨hs 2, hlast⟩⟩
    obtain ⟨previous, he⟩ := enterCleanup_quiet hb.handlers hq
    have hu : Uninterrupted env (w.cleanupAt (2 + args.masked.length) args.masked.reverse) :=
      fun k => by
        rw [interruptedAt, World.cleanupAt, hs]
        rfl
    obtain ⟨failed, new, w', hc, hres⟩ := restore_all hu
      (show [Transaction.hugeSettings, .settings].Nodup by decide) hr
    obtain ⟨hhost, hlog⟩ := finallyBlock_after he hc
    have hr₂ : r.2.host = w'.host := by rw [← hhost, ← hstate]
    have hl₂ : r.2.log = new ++ w.log := by rw [← hstate] at hlog; rw [hlog, hres.reached.log]; rfl
    refine ⟨fun p hp hok => ?_, fun ⟨ev, hev, hph, hbad⟩ => ?_⟩
    · obtain ⟨t, ht⟩ := HostPath.owner_of_restorable hp
      rw [hr₂]
      refine hres.brought t t.mem_all p ht (List.any_eq_false.2 fun ev hev => ?_)
      by_cases hpath : ev.2.path? = some p
      · rw [hok ev (hl₂ ▸ List.mem_append_left _ hev) (hres.phases ev hev) hpath, Bool.not_true,
          Bool.and_false]
        exact Bool.false_ne_true
      · rw [decide_eq_false hpath, Bool.false_and]
        exact Bool.false_ne_true
    · -- the failed access was made by the `finally` clause
      have hnew : ev ∈ new := (List.mem_append.1 (hl₂ ▸ hev)).resolve_right fun h =>
        hb.log ev h hph
      obtain ⟨message, hm⟩ := finallyBlock_failed hs he hc hres.reached.phase fun hf =>
        Bool.false_ne_true (hbad.symm.trans (List.all_eq_true.1 (hres.outcome.1 hf) ev hnew))
      exact ⟨message, herror _ hm⟩

/-- A refused write to the huge-page pool: NUMA balancing is restored all the same. -/
theorem runner_restores_host_refused :
    let env : Env HostPath := ⟨fun _ _ => [], fun _ _ => none,
      fun phase k => if phase = .cleanup ∧ k < 8 then .fails .osError "denied" none else .takes,
      fun _ _ => none, fun _ => "nr_hugepages"⟩
    let m : Machine := ⟨true, true, false, false, 4, fun _ => true, id, [⟨0, some 4194304, [2048]⟩]⟩
    let args : Args := ⟨⟨2, by decide⟩, [.idleLatency], none, none, false, .auto, false, false,
      false, false⟩
    let files : HostPath → Int := fun p => if p = .numaBalancing then 1 else 0
    (main env m args (.start files)).2.host.files .numaBalancing = files .numaBalancing ∧
      ∃ message, (main env m args (.start files)).1 = .error (.error .runtimeError message) := by
  intro env m args files
  obtain ⟨hfiles, hfailed⟩ := runner_restores_host env m args files fun _ => rfl
  exact ⟨hfiles .numaBalancing (.inl rfl) (by decide +kernel), hfailed (by decide +kernel)⟩

end MmMem

import MmMem.KernelSettingsRestore

namespace MmMem
open Prog
set_option autoImplicit true

theorem Recoverable.fresh (owner : π → Option Transaction) (files : π → Int)
    (privilege : Option (List String)) : Recoverable owner files (.fresh files privilege) where
  held _ _ _ := .inl rfl
  recorded _ _ he := absurd he List.not_mem_nil
  nodup _ := List.nodup_nil

/-- A call of a public method of one `KernelSettings` object. -/
inductive Call (π : Type) where
  | set (path : π) (value : Int)
  | restore
  deriving DecidableEq

/-- The log entries of `w'` that are not in `w`. -/
def World.since (w' w : World π) : List (Phase × Event π) :=
  w'.log.take (w'.log.length - w.log.length)

theorem World.since_eq {w w' : World π} (h : w'.log = new ++ w.log) : w'.since w = new := by
  rw [World.since, h, List.length_append, Nat.add_sub_cancel]
  exact List.take_left

variable {π : Type} [DecidableEq π]

def Call.run (env : Env π) (t : Transaction) : Call π → Program π Unit
  | .set path value => KernelSettings.set env t path value
  | .restore => KernelSettings.restore env t

/-- The calls one after the other, each made whether or not the ones before it raised. -/
def runCalls (env : Env π) (t : Transaction) (calls : List (Call π)) (w : World π) : World π :=
  calls.foldl (fun w call => (call.run env t w).2) w

variable {env : Env π} {t : Transaction} {w w' : World π} {initial : π → Int}

theorem Call.run_recoverable (call : Call π) :
    Script.Keeps (OnHost (Recoverable (fun _ => some t) initial)) (call.run env t) := by
  cases call with
  | set path value => exact set_recoverable rfl
  | restore => exact restore_recoverable

theorem runCalls_recoverable (calls : List (Call π))
    (h : Recoverable (fun _ => some t) initial w.host) :
    Recoverable (fun _ => some t) initial (runCalls env t calls w).host := by
  induction calls generalizing w with
  | nil => exact h
  | cons call calls ih => exact ih (call.run_recoverable.state h)

theorem Report.brought {owner : π → Option Transaction} {new : List (Phase × Event π)} {p : π}
    (hrep : Report w t (w.host.transaction t).original.reverse new w')
    (h : Recoverable owner initial w.host) (ho : owner p = some t)
    (hfine : failedOn new p = false) : w'.host.files p = initial p := by
  by_cases hp : ∃ e ∈ (w.host.transaction t).original, e.1 = p
  · obtain ⟨e, he, rfl⟩ := hp
    rw [hrep.restored e (List.mem_reverse.2 he) hfine]
    exact (h.recorded t e he).2
  · -- an unrecorded path still holds its initial value
    rw [hrep.others p fun e he heq => hp ⟨e, List.mem_reverse.1 he, heq.symm⟩]
    exact (h.held p t ho).resolve_right fun hmem => hp ⟨_, hmem, rfl⟩

theorem restore_clean (hu : Uninterrupted env w)
    (hkeys : ((w.host.transaction t).original.map Prod.fst).Nodup)
    (hok : ∀ ev ∈ (KernelSettings.restore env t w).2.since w, ev.2.ok = true) :
    ∃ new w', KernelSettings.restore env t w = (.ok (), w'.record (.restored t)) ∧
      Report w t (w.host.transaction t).original.reverse new w' ∧ allOk new = true := by
  obtain ⟨o, new, w', heq, hrep, ho⟩ := restore_report hu hkeys
  have hlog : (w'.record (.restored t)).log = ((w'.phase, .restored t) :: new) ++ w.log := by
    rw [World.record, hrep.reached.log]
    rfl
  rw [heq, World.since_eq hlog] at hok
  have hnew : allOk new = true :=
    List.all_eq_true.2 fun ev hev => hok ev (List.mem_cons_of_mem _ hev)
  obtain ⟨rfl, -⟩ := ho.resolve_right fun hbad => Bool.false_ne_true (hbad.2.symm.trans hnew)
  exact ⟨new, w', heq, hrep, hnew⟩

theorem Recoverable.restore (h : Recoverable (fun _ => some t) initial w.host)
    (hu : Uninterrupted env w)
    (hok : ∀ ev ∈ (KernelSettings.restore env t w).2.since w, ev.2.ok = true) :
    ∃ w', KernelSettings.restore env t w = (.ok (), w') ∧ w'.host.files = initial ∧
      (w'.host.transaction t).original = [] := by
  obtain ⟨new, w', heq, hrep, hnew⟩ := restore_clean hu (h.nodup t) hok
  have hfine := failedOn_of_allOk hnew
  refine ⟨_, heq, funext fun p => hrep.brought h rfl (hfine p), ?_⟩
  rw [World.record_host, hrep.original, List.filter_eq_nil_iff]
  intro e he
  rw [hfine, Bool.or_false, Bool.not_eq_true', Bool.not_eq_false, List.any_eq_true]
  exact ⟨e, List.mem_reverse.2 he, beq_self_eq_true e.1⟩

/-- With nothing recorded, the two statements around the loop are all there is to interrupt. -/
theorem restore_empty (env : Env π) (h : (w.host.transaction t).original = []) :
    KernelSettings.restore env t w =
      if interruptedAt env w w.step then
        (.error .keyboardInterrupt, { w with step := w.step + 1 })
      else if interruptedAt env w (w.step + 1) then
        (.error .keyboardInterrupt, { w with step := w.step + 2 })
      else (.ok (), { w with step := w.step + 2 }.record (.restored t)) := by
  rw [KernelSettings.restore]
  cases h₁ : interruptedAt env w w.step with
  | true => rw [Script.bind_error _ (boundary_stopped h₁), if_pos rfl]
  | false =>
    rw [if_neg Bool.false_ne_true, Script.bind_ok _ (boundary_passed h₁),
      Script.bind_ok _ (Script.get_apply _), h, List.reverse_nil, Script.collect, Script.pure_bind]
    cases h₂ : interruptedAt env w (w.step + 1) with
    | true => rw [Script.bind_error _ (boundary_stopped h₂), if_pos rfl]
    | false =>
      rw [if_neg Bool.false_ne_true, Script.bind_ok _ (boundary_passed h₂)]
      rfl

theorem restore_empty_quiet (env : Env π) (h : (w.host.transaction t).original = []) :
    (KernelSettings.restore env t w).2.host = w.host ∧
      ∃ new, (KernelSettings.restore env t w).2.log = new ++ w.log ∧
        ∀ ev ∈ new, ev.2 = .restored t := by
  rw [restore_empty env h]
  split
  · exact ⟨rfl, [], rfl, fun _ hev => absurd hev List.not_mem_nil⟩
  split
  · exact ⟨rfl, [], rfl, fun _ hev => absurd hev List.not_mem_nil⟩
  · exact ⟨rfl, [(w.phase, .restored t)], rfl, fun _ hev => List.mem_singleton.1 hev ▸ rfl⟩

/-- No sequence of `set` and `restore` calls loses an original value: after any of them every
file is unchanged or recorded, and a restoration in which every access succeeds brings all
files back and leaves nothing to do for the next one. -/
theorem kernel_settings_keep_originals (env : Env π) (t : Transaction) (files : π → Int)
    (privilege : Option (List String)) (w₀ : World π) (calls : List (Call π)) :
    let w := runCalls env t calls (w₀.withHost (.fresh files privilege))
    ((∀ p, w.host.files p = files p ∨ (p, files p) ∈ (w.host.transaction t).original) ∧
      (∀ e ∈ (w.host.transaction t).original, e.2 = files e.1) ∧
      ((w.host.transaction t).original.map Prod.fst).Nodup) ∧
    ∀ env' : Env π, Uninterrupted env' w →
      (∀ ev ∈ (KernelSettings.restore env' t w).2.since w, ev.2.ok = true) →
      ∃ w', KernelSettings.restore env' t w = (.ok (), w') ∧ w'.host.files = files ∧
        (w'.host.transaction t).original = [] ∧
        ∀ env'' : Env π, (KernelSettings.restore env'' t w').2.host = w'.host ∧
          (∃ new, (KernelSettings.restore env'' t w').2.log = new ++ w'.log ∧
            ∀ ev ∈ new, ev.2 = .restored t) ∧
          (Uninterrupted env'' w' → (KernelSettings.restore env'' t w').1 = .ok ()) := by
  intro w
  have hr : Recoverable (fun _ => some t) files w.host :=
    runCalls_recoverable calls (Recoverable.fresh _ files privilege)
  refine ⟨⟨fun p => hr.held p t rfl, fun e he => (hr.recorded t e he).2, hr.nodup t⟩, ?_⟩
  intro env' hu hok
  obtain ⟨w', heq, hfiles, hempty⟩ := hr.restore hu hok
  refine ⟨w', heq, hfiles, hempty, fun env'' => ?_⟩
  obtain ⟨hhost, hquiet⟩ := restore_empty_quiet env'' hempty
  refine ⟨hhost, hquiet, fun hu'' => ?_⟩
  rw [restore_empty env'' hempty, hu'' w'.step, hu'' (w'.step + 1)]
  rfl

/-- A kernel that clamps the first write and refuses the next, then one that takes every write. -/
theorem kernel_settings_keep_originals_clamped :
    let takes : Env Bool := ⟨fun _ _ => [], fun _ _ => none, fun _ _ => .takes, fun _ _ => none,
      fun _ => "nr_hugepages"⟩
    let clamps : Env Bool := { takes with
      writes := fun _ k => if k < 6 then .clamps 3 else .fails .osError "refused" none }
    let w₀ : World Bool := ⟨.fresh (fun _ => 0) none, fun _ => false, .body, 0, []⟩
    let w := runCalls clamps .hugeSettings [.set true 8, .set false 4, .restore]
      (w₀.withHost (.fresh (fun _ => 1) (some [])))
    w.host.files true = 3 ∧
      ∃ w', KernelSettings.restore takes .hugeSettings w = (.ok (), w') ∧
        w'.host.files = fun _ => 1 := by
  intro takes clamps w₀ w
  obtain ⟨w', heq, hfiles, -⟩ := (kernel_settings_keep_originals clamps .hugeSettings
    (fun _ => 1) (some []) w₀ [.set true 8, .set false 4, .restore]).2 takes (fun _ => rfl)
    (by decide +kernel)
  exact ⟨by decide +kernel, w', heq, hfiles⟩

end MmMem

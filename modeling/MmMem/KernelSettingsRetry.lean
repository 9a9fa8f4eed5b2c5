import MmMem.KernelSettingsEffects

namespace MmMem
open Prog
set_option autoImplicit true

variable {π : Type} [DecidableEq π] {env : Env π} {t : Transaction} {w w' : World π}

theorem Report.left (h : Report w t (w.host.transaction t).original.reverse new w') :
    (w'.host.transaction t).original =
      (w.host.transaction t).original.filter fun e => failedOn new e.1 := by
  rw [h.original]
  refine List.filter_congr fun e he => ?_
  have hentry : (w.host.transaction t).original.reverse.any (·.1 == e.1) = true :=
    List.any_eq_true.2 ⟨e, List.mem_reverse.2 he, beq_self_eq_true e.1⟩
  rw [hentry, Bool.not_true, Bool.false_or]

theorem Report.allOk_iff (h : Report w t (w.host.transaction t).original.reverse new w') :
    allOk new = true ↔ (w'.host.transaction t).original = [] := by
  rw [h.left, List.filter_eq_nil_iff]
  constructor
  · intro hok e _
    rw [failedOn_of_allOk hok]
    exact Bool.false_ne_true
  · intro hnone
    refine List.all_eq_true.2 fun ev hev => ?_
    obtain ⟨-, e, he, hp⟩ := h.about ev hev
    by_contra hbad
    apply hnone e (List.mem_reverse.1 he)
    refine List.any_eq_true.2 ⟨ev, hev, ?_⟩
    rw [decide_eq_true hp, Bool.true_and, Bool.not_eq_true']
    exact Bool.not_eq_true _ ▸ hbad

omit [DecidableEq π] in
theorem since_restored (h : w'.log = new ++ w.log) :
    (w'.record (.restored t)).since w = (w'.phase, .restored t) :: new := by
  apply World.since_eq
  rw [World.record, h]
  rfl

theorem failedOn_restored (new : List (Phase × Event π)) (p : π) :
    failedOn ((phase, .restored t) :: new) p = failedOn new p := by
  rw [failedOn, List.any_cons]
  rfl

/-- With nothing in its way a restoration returns, every access having succeeded. -/
theorem Able.restore (h : Able env t w)
    (hkeys : ((w.host.transaction t).original.map Prod.fst).Nodup) :
    ∃ new w', KernelSettings.restore env t w = (.ok (), w'.record (.restored t)) ∧
      Report w t (w.host.transaction t).original.reverse new w' ∧ allOk new = true := by
  obtain ⟨o, new, w', heq, hrep, ho⟩ := restore_report h.uninterrupted hkeys
  obtain ⟨_, s, hreturn, -⟩ := restore_completes.returns h
  rcases ho with ⟨rfl, hok⟩ | ⟨⟨message, rfl⟩, -⟩
  · exact ⟨new, w', heq, hrep, hok⟩
  · rw [heq] at hreturn
    cases hreturn

/-- It brings back every file that is recoverable through it. -/
theorem Able.restore_brings {owner : π → Option Transaction} {initial : π → Int}
    (h : Able env t w) (hr : Recoverable owner initial w.host) :
    ∃ w', KernelSettings.restore env t w = (.ok (), w') ∧
      ∀ p, owner p = some t → w'.host.files p = initial p := by
  obtain ⟨new, w', heq, hrep, hok⟩ := h.restore (hr.nodup t)
  exact ⟨_, heq, fun p hp => hrep.brought hr hp (failedOn_of_allOk hok p)⟩

/-- A second restoration, with nothing in its way, settles what a first one has left. -/
theorem Report.retry (h : Report w t (w.host.transaction t).original.reverse new w')
    (hkeys : ((w.host.transaction t).original.map Prod.fst).Nodup) {env' : Env π}
    {w₁ : World π} (hhost : w₁.host = w'.host) (hable : Able env' t w₁) :
    ∃ w'', KernelSettings.restore env' t w₁ = (.ok (), w'') ∧
      (w''.host.transaction t).original = [] ∧
      ∀ e ∈ (w.host.transaction t).original, w''.host.files e.1 = e.2 := by
  have hleft := h.left
  rw [← hhost] at hleft
  have hkeys' : ((w₁.host.transaction t).original.map Prod.fst).Nodup := by
    rw [hleft]
    exact hkeys.sublist (List.filter_sublist.map Prod.fst)
  obtain ⟨new', w'', heq, hrep, hok⟩ := hable.restore hkeys'
  refine ⟨_, heq, hrep.allOk_iff.1 hok, fun e he => ?_⟩
  rw [World.record_host]
  by_cases hmem : e ∈ (w₁.host.transaction t).original
  · exact hrep.restored e (List.mem_reverse.2 hmem) (failedOn_of_allOk hok e.1)
  · have hfine : failedOn new e.1 = false := by
      rw [hleft, List.mem_filter] at hmem
      rw [← Bool.not_eq_true]
      exact fun hfailed => hmem ⟨he, hfailed⟩
    rw [hrep.others e.1, hhost]
    · exact h.restored e (List.mem_reverse.2 he) hfine
    · -- no path that is left is this one, whose accesses all succeeded
      intro x hx heq
      rw [List.mem_reverse, hleft, List.mem_filter, ← heq, hfine] at hx
      exact Bool.false_ne_true hx.2

/-- A partly failing restoration is exact about what it did: it tries every recorded path, writes
only what differs, keeps exactly the paths with a failed access, and raises if any is left; a
second one, with nothing in its way, completes it. -/
theorem restore_exact (env : Env π) (t : Transaction) (w : World π)
    (hkeys : ((w.host.transaction t).original.map Prod.fst).Nodup) (hu : Uninterrupted env w) :
    let recorded := (w.host.transaction t).original
    let r := KernelSettings.restore env t w
    let left := (r.2.host.transaction t).original
    (∀ e ∈ recorded, ∃ ok, (w.phase, .read e.1 ok) ∈ r.2.since w) ∧
    (∀ ev ∈ r.2.since w, ev.2.isWrite = true →
      ∃ e ∈ recorded, ev.2.path? = some e.1 ∧ w.host.files e.1 ≠ e.2) ∧
    (left = recorded.filter fun e => failedOn (r.2.since w) e.1) ∧
    (∀ e ∈ recorded, e ∉ left → r.2.host.files e.1 = e.2) ∧
    ((left = [] ∧ r.1 = .ok ()) ∨
      (left ≠ [] ∧ ∃ message, r.1 = .error (.error .runtimeError message))) ∧
    ∀ env' : Env π, Able env' t r.2 →
      ∃ w', KernelSettings.restore env' t r.2 = (.ok (), w') ∧
        (w'.host.transaction t).original = [] ∧ ∀ e ∈ recorded, w'.host.files e.1 = e.2 := by
  obtain ⟨o, new, w', heq, hrep, ho⟩ := restore_report (t := t) hu hkeys
  have hsince := since_restored (t := t) hrep.reached.log
  simp only [heq, hsince, failedOn_restored, World.record_host]
  refine ⟨fun e he => ?_, fun ev hev hwrite => ?_, hrep.left, fun e he hgone => ?_, ?_, ?_⟩
  · obtain ⟨ok, hok⟩ := hrep.attempted e (List.mem_reverse.2 he)
    exact ⟨ok, List.mem_cons_of_mem _ hok⟩
  · rcases List.mem_cons.1 hev with rfl | hev
    · cases hwrite
    · obtain ⟨e, he, hp⟩ := hrep.writes ev hev hwrite
      exact ⟨e, List.mem_reverse.1 he, hp⟩
  · refine hrep.restored e (List.mem_reverse.2 he) ?_
    rw [← Bool.not_eq_true]
    exact fun hfailed => hgone (hrep.left ▸ List.mem_filter.2 ⟨he, hfailed⟩)
  · rcases ho with ⟨rfl, hok⟩ | ⟨herror, hbad⟩
    · exact .inl ⟨hrep.allOk_iff.1 hok, rfl⟩
    · refine .inr ⟨fun hnil => ?_, herror⟩
      rw [hrep.allOk_iff.2 hnil] at hbad
      cases hbad
  · intro env' hable
    exact hrep.retry hkeys rfl hable

/-- One of two paths cannot be written at first. -/
theorem restore_exact_denied :
    let takes : Env Bool := ⟨fun _ _ => [], fun _ _ => none, fun _ _ => .takes, fun _ _ => none,
      fun _ => "nr_hugepages"⟩
    let denies : Env Bool := { takes with
      writes := fun _ k => if k < 4 then .fails .osError "denied" none else .takes }
    let w : World Bool := ⟨⟨fun _ => 2, fun _ => ⟨some [], [(true, 1), (false, 1)]⟩⟩,
      fun _ => false, .body, 0, []⟩
    let r := KernelSettings.restore denies .settings w
    r.2.host.files true = 1 ∧ r.2.host.files false = 2 ∧
      (r.2.host.transaction .settings).original = [(false, 1)] ∧
      ∃ w', KernelSettings.restore takes .settings r.2 = (.ok (), w') ∧
        w'.host.files true = 1 ∧ w'.host.files false = 1 := by
  intro takes denies w r
  obtain ⟨-, -, -, -, -, hretry⟩ := restore_exact denies .settings w (by decide) fun _ => rfl
  have hable : Able takes .settings r.2 :=
    ⟨⟨fun _ => rfl, fun _ => rfl, fun _ => rfl⟩, by decide +kernel⟩
  obtain ⟨w', heq, -, hfiles⟩ := hretry takes hable
  refine ⟨by decide +kernel, by decide +kernel, by decide +kernel, w', heq, ?_, ?_⟩
  · exact hfiles (true, 1) (by decide)
  · exact hfiles (false, 1) (by decide)

end MmMem

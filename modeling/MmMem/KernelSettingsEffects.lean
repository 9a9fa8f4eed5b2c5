import MmMem.KernelSettingsRecovery

namespace MmMem
open Prog
set_option autoImplicit true

variable {π : Type}

/-- Nothing goes wrong from here: no signal arrives, reads succeed and files take what is
written. -/
structure Obliging (env : Env π) (w : World π) : Prop where
  uninterrupted : Uninterrupted env w
  reads : ∀ k, env.readFails w.phase k = none
  writes : ∀ k, env.writes w.phase k = .takes

/-- The transaction may also write. -/
structure Able (env : Env π) (t : Transaction) (w : World π) : Prop extends Obliging env w where
  privileged : (w.host.transaction t).privilege ≠ none

variable {env : Env π} {t : Transaction} {p : π} {v : Int} {w w' : World π}

theorem Obliging.hostBlind : HostBlind (Obliging env) where
  step _ _ h := ⟨h.uninterrupted, h.reads, h.writes⟩
  record _ _ h := ⟨h.uninterrupted, h.reads, h.writes⟩
  withHost _ _ h := ⟨h.uninterrupted, h.reads, h.writes⟩

theorem Able.frame : Frame (Able env t) where
  step w n h := ⟨Obliging.hostBlind.step w n h.toObliging, h.privileged⟩
  record w e h := ⟨Obliging.hostBlind.record w e h.toObliging, h.privileged⟩

theorem Able.withHost (h : Able env t w) {host : Host π}
    (hp : (host.transaction t).privilege = (w.host.transaction t).privilege) :
    Able env t (w.withHost host) :=
  ⟨Obliging.hostBlind.withHost w host h.toObliging, hp ▸ h.privileged⟩

theorem Frame.boundary_completes {I : World π → Prop} (hI : Frame I)
    (ho : ∀ w, I w → Obliging env w) : Script.Completes I (boundary env) := by
  intro w hw
  rw [boundary_ok (ho w hw).uninterrupted]
  exact hI.step w _ hw

theorem Frame.readInt_completes {I : World π → Prop} (hI : Frame I)
    (ho : ∀ w, I w → Obliging env w) : Script.Completes I (readInt env p) := by
  apply (hI.boundary_completes ho).bind
  intro _ w hw
  simp only [(ho w hw).reads]
  exact hI.record w _ hw

theorem boundary_completes : Script.Completes (Able env t) (boundary env) :=
  Able.frame.boundary_completes fun _ hw => hw.toObliging

theorem readInt_completes : Script.Completes (Able env t) (readInt env p) :=
  Able.frame.readInt_completes fun _ hw => hw.toObliging

theorem readInt_holding :
    Script.Meets (fun w => Able env t w ∧ w.host.files p = v) (readInt env p)
      (fun x w => (Able env t w ∧ w.host.files p = v) ∧ x = v) fun _ _ => False := by
  have hread : Script.Completes (Able env t) (readInt env p) := readInt_completes
  apply (hread.and (readInt_meets (J := fun h => h.files p = v) env p)).mono (fun _ hw => hw)
  · rintro x w ⟨hw, hv, hx⟩
    exact ⟨⟨hw, hv⟩, hx.symm.trans hv⟩
  · exact fun _ _ h => h.1

theorem setDefault_privilege [DecidableEq π] (h : Host π) (t t' : Transaction) (p : π) (v : Int) :
    ((h.setDefault t p v).transaction t').privilege = (h.transaction t').privilege := by
  rw [Host.setDefault]
  split
  · rfl
  · exact Host.setOriginal_privilege h t t' _

theorem setDefault_files [DecidableEq π] (h : Host π) (t : Transaction) (p : π) (v : Int) :
    (h.setDefault t p v).files = h.files := by
  rw [Host.setDefault]
  split <;> rfl

variable [DecidableEq π]

theorem write_takes : Script.Meets (Able env t) (KernelSettings.write env t p v)
    (fun _ w => Able env t w ∧ w.host.files p = v) fun _ _ => False := by
  apply boundary_completes.bind
  intro _
  apply Script.Meets.get_bind
  intro w hw
  cases hp : (w.host.transaction t).privilege with
  | none => exact absurd hp hw.privileged
  | some privilege =>
    simp only [writeFile, hw.writes]
    have hset : Able env t (w.withHost (w.host.setFile p v)) := hw.withHost rfl
    exact ⟨Able.frame.record _ _ hset, Host.setFile_files_self ..⟩

theorem write_completes : Script.Completes (Able env t) (KernelSettings.write env t p v) :=
  write_takes.mono (fun _ hw => hw) (fun _ _ hw => hw.1) fun _ _ h => h

theorem set_completes : Script.Completes (Able env t) (KernelSettings.set env t p v) := by
  apply readInt_completes.bind
  intro previous
  apply boundary_completes.bind
  intro _
  split
  · exact Script.Completes.pure _ _
  apply boundary_completes.bind
  intro _
  apply Script.Meets.bind (Q := fun _ => Able env t)
  · exact Script.Meets.modify fun w hw => hw.withHost (setDefault_privilege ..)
  intro _
  apply write_takes.bind
  intro _
  apply readInt_holding.bind
  intro current
  split
  · next hne => exact Script.Meets.raise fun _ hw => hne hw.2
  · exact Script.Meets.pure fun _ hw => hw.1.1

theorem settle_completes : Script.Meets (Able env t) (KernelSettings.settle env t p)
    (fun x w => Able env t w ∧ x = none) fun _ _ => False := by
  apply boundary_completes.bind
  intro _
  apply Script.Meets.bind (Q := fun _ => Able env t)
  · exact Script.Meets.modify fun w hw => hw.withHost (Host.setOriginal_privilege ..)
  · exact fun _ => Script.Meets.pure fun _ hw => ⟨hw, rfl⟩

theorem restoreEntry_completes (e : π × Int) :
    Script.Meets (Able env t) (KernelSettings.restoreEntry env t e)
      (fun x w => Able env t w ∧ x = none) fun _ _ => False := by
  apply Script.Meets.tryExcept (E := fun _ _ => False)
  · apply readInt_completes.bind
    intro current
    split
    · exact settle_completes
    apply write_takes.bind
    intro _
    apply readInt_holding.bind
    intro readback
    split
    · next hne => exact Script.Meets.raise fun _ hw => hne hw.2
    · exact settle_completes.mono (fun _ hw => hw.1.1) (fun _ _ hw => hw) fun _ _ h => h
  · exact fun _ _ _ _ h => h.elim
  · exact fun _ _ _ h => h.elim

theorem restore_completes : Script.Completes (Able env t) (KernelSettings.restore env t) := by
  apply boundary_completes.bind
  intro _
  apply Script.Meets.get_bind
  intro w hw
  refine Script.Meets.bind (Script.Meets.collect_none fun e _ => restoreEntry_completes e)
    (fun errors => ?_) w hw
  rintro w ⟨hw, rfl⟩
  refine Script.Completes.bind boundary_completes (fun _ => ?_) w hw
  exact fun w hw => Able.frame.record w _ hw

theorem write_files (f : π → Int) :
    Script.Ensures (OnHost fun h => h.files = f) (KernelSettings.write env t p v)
      fun _ => OnHost fun h => ∃ x, h.files = Function.update f p x := by
  have hkeeps : Script.Keeps (OnHost fun h : Host π => ∃ x, h.files = Function.update f p x)
      (KernelSettings.write env t p v) := by
    apply write_keeps (.onHost _)
    rintro w x ⟨y, hy⟩
    exact ⟨x, by rw [World.withHost_host, Host.setFile, hy, Function.update_idem]⟩
  apply hkeeps.ensures.mono
  · exact fun w hw => ⟨f p, hw.trans (Function.update_eq_self p f).symm⟩
  · exact fun _ _ hw => hw

theorem set_files (f : π → Int) :
    Script.Ensures (OnHost fun h => h.files = f) (KernelSettings.set env t p v)
      fun _ => OnHost fun h => h.files = Function.update f p v := by
  have hboundary : ∀ J : Host π → Prop, Script.Keeps (OnHost J) (boundary env) :=
    fun J => boundary_keeps (.onHost J)
  apply (readInt_meets env p).ensures.bind
  intro previous
  apply (hboundary _).ensures.bind
  intro _
  split
  · next heq =>
    apply Script.Ensures.pure
    rintro w ⟨hfiles, hp⟩
    rw [hfiles] at hp
    rw [OnHost, hfiles, ← heq, ← hp, Function.update_eq_self]
  apply (hboundary _).ensures.bind
  intro _
  apply Script.Ensures.bind (Q := fun _ => OnHost fun h => h.files = f)
  · exact Script.Ensures.modify fun w hw => (setDefault_files ..).trans hw.1
  intro _
  apply (write_files f).bind
  intro _
  apply (readInt_meets env p).ensures.bind
  intro current
  split
  · exact Script.Ensures.raise
  · next heq =>
    apply Script.Ensures.pure
    rintro w ⟨⟨x, hx⟩, hcur⟩
    rw [hx, Function.update_self] at hcur
    rw [OnHost, hx, hcur, not_not.1 heq]

omit [DecidableEq π] in
/-- A loop of steps with these effects on the files has all of them, if it returns. -/
theorem forEach_files {step : β → Program π Unit} {effect : (π → Int) → β → π → Int}
    (h : ∀ f a, Script.Ensures (OnHost fun h => h.files = f) (step a)
      fun _ => OnHost fun h => h.files = effect f a)
    (l : List β) (f : π → Int) :
    Script.Ensures (OnHost fun h => h.files = f) (Script.forEach l step)
      fun _ => OnHost fun h => h.files = l.foldl effect f := by
  have hloop := Script.Ensures.forEach (l := l) (f := step)
    (I := fun rest => OnHost fun h => rest.foldl effect h.files = l.foldl effect f) ?_
  · apply hloop.mono
    · exact fun w hw => congrArg (l.foldl effect) hw
    · exact fun _ _ hw => hw
  · intro a rest w hw
    refine (h w.host.files a).mono (fun _ hs => hs) (fun _ s hs => ?_) w rfl
    rw [OnHost, hs]
    exact hw

end MmMem

import MmMem.KernelSettings
import Mathlib.Data.List.Nodup

namespace MmMem
open Prog
set_option autoImplicit true

variable {π : Type} {env : Env π} {owner : π → Option Transaction} {initial : π → Int}
  {h : Host π} {t : Transaction} {p : π} {J : Host π → Prop}

@[simp] theorem Host.setOriginal_self (h : Host π) (t : Transaction) (o : List (π × Int)) :
    ((h.setOriginal t o).transaction t).original = o := by
  simp only [Host.setOriginal, Function.update_self]

theorem Host.setOriginal_ne (h : Host π) (o : List (π × Int)) (hne : t' ≠ t) :
    (h.setOriginal t o).transaction t' = h.transaction t' := Function.update_of_ne hne ..

@[simp] theorem Host.setOriginal_privilege (h : Host π) (t t' : Transaction)
    (o : List (π × Int)) :
    ((h.setOriginal t o).transaction t').privilege = (h.transaction t').privilege := by
  by_cases hne : t' = t
  · subst hne
    simp only [Host.setOriginal, Function.update_self]
  · rw [Host.setOriginal_ne h o hne]

@[simp] theorem World.record_host (w : World π) (e : Event π) : (w.record e).host = w.host := rfl

@[simp] theorem World.withHost_host (w : World π) (h : Host π) : (w.withHost h).host = h := rfl

/-- The path a file access is about. -/
def Event.path? : Event π → Option π
  | .read path _ => some path
  | .refused path _ => some path
  | .write path _ _ _ => some path
  | _ => none

/-- A property of the settings files and transactions alone. -/
abbrev OnHost (J : Host π → Prop) (w : World π) : Prop := J w.host

/-- A property that statement numbers and new log entries do not change. -/
structure Frame (I : World π → Prop) : Prop where
  step : ∀ w n, I w → I { w with step := n }
  record : ∀ w e, I w → I (w.record e)

/-- A frame that says nothing of the host either. -/
structure HostBlind (I : World π → Prop) : Prop extends Frame I where
  withHost : ∀ w h, I w → I (w.withHost h)

/-- A property that statement numbers and accesses to this path do not change. -/
structure FrameAt (p : π) (I : World π → Prop) : Prop where
  step : ∀ w n, I w → I { w with step := n }
  record : ∀ w e, e.path? = some p → I w → I (w.record e)

theorem Frame.at (hI : Frame I) (p : π) : FrameAt p I := ⟨hI.step, fun w e _ => hI.record w e⟩

theorem Frame.onHost (J : Host π → Prop) : Frame (OnHost J) := ⟨fun _ _ h => h, fun _ _ h => h⟩

theorem boundary_apply (env : Env π) (w : World π) : boundary env w =
    (if (env.signals w.phase w.step).any (fun s => !w.ignored s)
      then .error .keyboardInterrupt else .ok (), { w with step := w.step + 1 }) := by
  simp only [boundary]
  split <;> rfl

theorem boundary_steps (hstep : ∀ w n, I w → I { w with step := n }) :
    Script.Keeps I (boundary env) := by
  intro w hw
  rw [boundary_apply]
  split
  · exact hstep w _ hw
  · exact hstep w _ hw

theorem boundary_keeps (hI : Frame I) : Script.Keeps I (boundary env) := boundary_steps hI.step

theorem record_keeps (hI : Frame I) (e : Event π) : Script.Keeps I (record e) :=
  fun w hw => hI.record w e hw

theorem readInt_records (hstep : ∀ w n, I w → I { w with step := n })
    (hread : ∀ w ok, I w → I (w.record (.read p ok))) : Script.Keeps I (readInt env p) := by
  apply (boundary_steps hstep).bind
  intro _ w hw
  cases hf : env.readFails w.phase w.step with
  | none =>
    simp only [hf]
    exact hread w true hw
  | some e =>
    simp only [hf]
    exact hread w false hw

theorem FrameAt.readInt (hI : FrameAt p I) : Script.Keeps I (readInt env p) :=
  readInt_records hI.step fun w _ => hI.record w _ rfl

theorem readInt_keeps (hI : Frame I) (p : π) : Script.Keeps I (readInt env p) := (hI.at p).readInt

theorem readInt_meets (env : Env π) (p : π) : Script.Meets (OnHost J) (readInt env p)
    (fun v => OnHost fun h => J h ∧ h.files p = v) fun _ => OnHost J := by
  apply (boundary_keeps (.onHost J)).bind_meets fun _ _ hw => hw
  intro _ w hw
  cases hf : env.readFails w.phase w.step with
  | none =>
    simp only [hf]
    exact ⟨hw, rfl⟩
  | some e =>
    simp only [hf]
    exact hw

/-- Every owned file holds its initial value or is recorded with it. -/
structure Recoverable (owner : π → Option Transaction) (initial : π → Int) (h : Host π) :
    Prop where
  held : ∀ p t, owner p = some t →
    h.files p = initial p ∨ (p, initial p) ∈ (h.transaction t).original
  recorded : ∀ t, ∀ e ∈ (h.transaction t).original, owner e.1 = some t ∧ e.2 = initial e.1
  nodup : ∀ t, ((h.transaction t).original.map Prod.fst).Nodup

/-- The entries still to be restored are recorded, each path once. -/
structure Pending (owner : π → Option Transaction) (initial : π → Int) (t : Transaction)
    (entries : List (π × Int)) (h : Host π) : Prop where
  recoverable : Recoverable owner initial h
  recorded : ∀ e ∈ entries, e ∈ (h.transaction t).original
  nodup : (entries.map Prod.fst).Nodup

theorem Pending.skip (hp : Pending owner initial t (e :: entries) h) :
    Pending owner initial t entries h :=
  ⟨hp.recoverable, fun x hx => hp.recorded x (List.mem_cons_of_mem e hx),
    (List.nodup_cons.1 hp.nodup).2⟩

theorem Recoverable.pending (hr : Recoverable owner initial h) (t : Transaction) :
    Pending owner initial t (h.transaction t).original.reverse h := by
  refine ⟨hr, fun e he => List.mem_reverse.1 he, ?_⟩
  rw [List.map_reverse, List.nodup_reverse]
  exact hr.nodup t

/-- A path recorded for the first time, while its file holds the initial value. -/
theorem Recoverable.recordNew (hr : Recoverable owner initial h) (ho : owner p = some t)
    (hnew : ∀ x, (p, x) ∉ (h.transaction t).original) :
    Recoverable owner initial (h.setOriginal t ((h.transaction t).original ++ [(p, initial p)])) where
  held q s hq := by
    rcases hr.held q s hq with hheld | hmem
    · exact .inl hheld
    · refine .inr ?_
      by_cases hs : s = t
      · subst hs
        rw [Host.setOriginal_self]
        exact List.mem_append_left _ hmem
      · rwa [Host.setOriginal_ne h _ hs]
  recorded s e he := by
    by_cases hs : s = t
    · subst hs
      rw [Host.setOriginal_self] at he
      rcases List.mem_append.1 he with he | he
      · exact hr.recorded s e he
      · obtain rfl := List.mem_singleton.1 he
        exact ⟨ho, rfl⟩
    · rw [Host.setOriginal_ne h _ hs] at he
      exact hr.recorded s e he
  nodup s := by
    by_cases hs : s = t
    · subst hs
      rw [Host.setOriginal_self, List.map_append]
      refine (hr.nodup s).append (List.nodup_singleton p) fun q hq hq' => ?_
      obtain rfl : q = p := List.mem_singleton.1 hq'
      obtain ⟨⟨q', x⟩, hmem, hqq⟩ := List.mem_map.1 hq
      obtain rfl : q' = q := hqq
      exact hnew x hmem
    · rw [Host.setOriginal_ne h _ hs]
      exact hr.nodup s

variable [DecidableEq π]

@[simp] theorem Host.setFile_files_self (h : Host π) (p : π) (v : Int) :
    (h.setFile p v).files p = v := Function.update_self ..

theorem Host.setFile_files_ne (h : Host π) (v : Int) (hne : q ≠ p) :
    (h.setFile p v).files q = h.files q := Function.update_of_ne hne ..

theorem Recoverable.setFile (hr : Recoverable owner initial h)
    (hp : ∀ t, owner p = some t → (p, initial p) ∈ (h.transaction t).original) (v : Int) :
    Recoverable owner initial (h.setFile p v) where
  held q t ho := by
    by_cases hq : q = p
    · subst hq
      exact .inr (hp t ho)
    · rw [Host.setFile_files_ne h v hq]
      exact hr.held q t ho
  recorded := hr.recorded
  nodup := hr.nodup

theorem Recoverable.setDefault (hr : Recoverable owner initial h) (ho : owner p = some t)
    (hf : h.files p = v) : Recoverable owner initial (h.setDefault t p v) ∧
      (p, initial p) ∈ ((h.setDefault t p v).transaction t).original := by
  by_cases hk : (h.transaction t).original.any (·.1 == p) = true
  · rw [Host.setDefault, if_pos hk]
    refine ⟨hr, ?_⟩
    obtain ⟨⟨q, x⟩, hmem, hq⟩ := List.any_eq_true.1 hk
    obtain rfl : q = p := eq_of_beq hq
    obtain rfl : x = initial q := (hr.recorded t _ hmem).2
    exact hmem
  · -- the path is not recorded yet, so its file still holds the initial value
    have hnew : ∀ x, (p, x) ∉ (h.transaction t).original := fun x hx =>
      hk (List.any_eq_true.2 ⟨(p, x), hx, beq_self_eq_true p⟩)
    obtain rfl : v = initial p := hf ▸ (hr.held p t ho).resolve_right (hnew _)
    rw [Host.setDefault, if_neg hk]
    refine ⟨hr.recordNew ho hnew, ?_⟩
    rw [Host.setOriginal_self]
    exact List.mem_append_right _ (List.mem_singleton_self _)

theorem Host.mem_delete {e : π × Int} : e ∈ ((h.delete t p).transaction t).original ↔
    e ∈ (h.transaction t).original ∧ e.1 ≠ p := by
  rw [Host.delete, Host.setOriginal_self, List.mem_filter, bne_iff_ne]

theorem Host.delete_ne (h : Host π) (p : π) (hne : t' ≠ t) :
    (h.delete t p).transaction t' = h.transaction t' := Host.setOriginal_ne h _ hne

theorem Recoverable.delete (hr : Recoverable owner initial h) (hf : h.files p = initial p) :
    Recoverable owner initial (h.delete t p) where
  held q s hq := by
    by_cases hqp : q = p
    · subst hqp
      exact .inl hf
    · rcases hr.held q s hq with hheld | hmem
      · exact .inl hheld
      · refine .inr ?_
        by_cases hs : s = t
        · subst hs
          exact Host.mem_delete.2 ⟨hmem, hqp⟩
        · rwa [Host.delete_ne h p hs]
  recorded s e he := by
    by_cases hs : s = t
    · subst hs
      exact hr.recorded s e (Host.mem_delete.1 he).1
    · rw [Host.delete_ne h p hs] at he
      exact hr.recorded s e he
  nodup s := by
    by_cases hs : s = t
    · subst hs
      rw [Host.delete, Host.setOriginal_self]
      exact (hr.nodup s).sublist (List.filter_sublist.map Prod.fst)
    · rw [Host.delete_ne h p hs]
      exact hr.nodup s

theorem FrameAt.writeFile (hI : FrameAt p I)
    (hset : ∀ w v, I w → I (w.withHost (w.host.setFile p v))) :
    Script.Keeps I (writeFile env elevated p v) := by
  intro w hw
  rw [MmMem.writeFile]
  cases env.writes w.phase w.step with
  | takes => exact hI.record _ _ rfl (hset w v hw)
  | clamps left => exact hI.record _ _ rfl (hset w left hw)
  | fails kind message left =>
    cases left with
    | none => exact hI.record _ _ rfl hw
    | some left => exact hI.record _ _ rfl (hset w left hw)

theorem FrameAt.write (hI : FrameAt p I)
    (hset : ∀ w v, I w → I (w.withHost (w.host.setFile p v))) :
    Script.Keeps I (KernelSettings.write env t p v) := by
  apply (boundary_steps hI.step).bind
  intro _
  apply (Script.Keeps.get _).bind
  intro w
  cases (w.host.transaction t).privilege with
  | none => exact fun w hw => hI.record w _ rfl hw
  | some privilege => exact hI.writeFile hset

theorem write_keeps (hI : Frame I) (hset : ∀ w v, I w → I (w.withHost (w.host.setFile p v))) :
    Script.Keeps I (KernelSettings.write env t p v) := (hI.at p).write hset

/-- A frame at this path that writing to it and changing the transaction's records keep. -/
structure BlindAt (env : Env π) (t : Transaction) (p : π) (I : World π → Prop) : Prop
    extends FrameAt p I where
  write : ∀ v, Script.Keeps I (KernelSettings.write env t p v)
  setOriginal : ∀ w o, I w → I (w.withHost (w.host.setOriginal t o))

theorem HostBlind.at (hI : HostBlind I) (env : Env π) (t : Transaction) (p : π) :
    BlindAt env t p I where
  toFrameAt := hI.toFrame.at p
  write _ := (hI.toFrame.at p).write fun w _ => hI.withHost w _
  setOriginal w _ := hI.withHost w _

theorem BlindAt.setDefault (hI : BlindAt env t p I) :
    Script.Keeps I (KernelSettings.setDefault t p v) := by
  intro w hw
  rw [KernelSettings.setDefault, Script.modify_apply, Host.setDefault]
  split
  · exact hw
  · exact hI.setOriginal w _ hw

theorem BlindAt.set (hI : BlindAt env t p I) : Script.Keeps I (KernelSettings.set env t p v) := by
  apply hI.readInt.bind
  intro previous
  apply (boundary_steps hI.step).bind
  intro _
  split
  · exact Script.Keeps.pure I _
  apply (boundary_steps hI.step).bind
  intro _
  apply hI.setDefault.bind
  intro _
  apply (hI.write _).bind
  intro _
  apply hI.readInt.bind
  intro current
  split
  · exact Script.Keeps.raise I _
  · exact Script.Keeps.pure I _

theorem BlindAt.settle (hI : BlindAt env t p I) :
    Script.Keeps I (KernelSettings.settle env t p) := by
  apply (boundary_steps hI.step).bind
  intro _
  apply Script.Keeps.bind (m := KernelSettings.delete t p)
  · exact fun w hw => hI.setOriginal w _ hw
  · exact fun _ => Script.Keeps.pure I _

theorem BlindAt.restoreEntry (e : π × Int) (hI : BlindAt env t e.1 I) :
    Script.Keeps I (KernelSettings.restoreEntry env t e) := by
  apply Script.Keeps.tryExcept
  · apply hI.readInt.bind
    intro current
    split
    · exact hI.settle
    apply (hI.write _).bind
    intro _
    apply hI.readInt.bind
    intro readback
    split
    · exact Script.Keeps.raise I _
    · exact hI.settle
  · intro x k hk
    cases x with
    | error kind message =>
      cases hk
      exact (boundary_steps hI.step).bind fun _ => Script.Keeps.pure I _
    | keyError => cases hk
    | keyboardInterrupt => cases hk

/-- A restoration keeps what no access to a recorded path changes. -/
theorem restore_keepsAt (hstep : ∀ w n, I w → I { w with step := n })
    (hrestored : ∀ w, I w → I (w.record (.restored t))) :
    Script.Meets (fun w => I w ∧ ∀ e ∈ (w.host.transaction t).original, BlindAt env t e.1 I)
      (KernelSettings.restore env t) (fun _ => I) fun _ => I := by
  have hboundary : Script.Keeps
      (fun w => I w ∧ ∀ e ∈ (w.host.transaction t).original, BlindAt env t e.1 I) (boundary env) :=
    boundary_steps fun w n hw => ⟨hstep w n hw.1, hw.2⟩
  apply hboundary.bind_meets fun _ _ hw => hw.1
  intro _
  apply Script.Meets.get_bind
  intro w hw
  refine Script.Keeps.bind (Script.Keeps.collect fun e he => ?_) (fun errors => ?_) w hw.1
  · exact (hw.2 e (List.mem_reverse.1 he)).restoreEntry e
  · apply (boundary_steps hstep).bind
    intro _
    refine Script.Keeps.bind (fun w hw => hrestored w hw) fun _ => ?_
    split
    · exact Script.Keeps.raise I _
    · exact Script.Keeps.pure I _

theorem HostBlind.restore (hI : HostBlind I) :
    Script.Keeps I (KernelSettings.restore env t) :=
  (restore_keepsAt hI.step fun w => hI.record w _).mono
    (fun _ hw => ⟨hw, fun e _ => hI.at env t e.1⟩)
    (fun _ _ hw => hw) fun _ _ hw => hw

theorem HostBlind.write (hI : HostBlind I) : Script.Keeps I (KernelSettings.write env t p v) :=
  (hI.at env t p).write v

theorem HostBlind.set (hI : HostBlind I) : Script.Keeps I (KernelSettings.set env t p v) :=
  (hI.at env t p).set

theorem set_recoverable (ho : owner p = some t) :
    Script.Keeps (OnHost (Recoverable owner initial)) (KernelSettings.set env t p v) := by
  have hwrite : Script.Keeps (OnHost fun h => Recoverable owner initial h ∧
      (p, initial p) ∈ (h.transaction t).original) (KernelSettings.write env t p v) := by
    refine write_keeps (.onHost _) fun w v hw => ⟨hw.1.setFile (fun s hs => ?_) v, hw.2⟩
    rw [ho] at hs
    obtain rfl := Option.some.inj hs
    exact hw.2
  apply (readInt_meets env p).bind
  intro previous
  apply (boundary_keeps (.onHost _)).bind_meets fun _ _ hw => hw.1
  intro _
  split
  · exact Script.Meets.pure fun _ hw => hw.1
  · apply (boundary_keeps (.onHost _)).bind_meets fun _ _ hw => hw.1
    intro _
    apply Script.Meets.bind (Q := fun _ => OnHost fun h =>
      Recoverable owner initial h ∧ (p, initial p) ∈ (h.transaction t).original)
    · exact Script.Meets.modify fun w hw => hw.1.setDefault ho hw.2
    · intro _
      apply hwrite.bind_meets fun _ _ hw => hw.1
      intro _
      apply Script.Meets.bind (Q := fun _ => OnHost (Recoverable owner initial))
      · exact (readInt_meets env p).mono (fun _ hw => hw.1) (fun _ _ hw => hw.1) fun _ _ hw => hw
      · intro current
        split
        · exact Script.Meets.raise fun _ hw => hw
        · exact Script.Meets.pure fun _ hw => hw

theorem Pending.setFile (hp : Pending owner initial t (e :: entries) h) (v : Int) :
    Pending owner initial t (e :: entries) (h.setFile e.1 v) := by
  have hmem := hp.recorded e List.mem_cons_self
  obtain ⟨ho, hv⟩ := hp.recoverable.recorded t e hmem
  refine ⟨hp.recoverable.setFile (fun s hs => ?_) v, hp.recorded, hp.nodup⟩
  rw [ho] at hs
  obtain rfl := Option.some.inj hs
  rwa [← hv]

theorem Pending.delete (hp : Pending owner initial t (e :: entries) h)
    (hf : h.files e.1 = e.2) : Pending owner initial t entries (h.delete t e.1) := by
  have hv := (hp.recoverable.recorded t e (hp.recorded e List.mem_cons_self)).2
  refine ⟨hp.recoverable.delete (hf.trans hv), fun x hx => Host.mem_delete.2 ⟨?_, ?_⟩,
    (List.nodup_cons.1 hp.nodup).2⟩
  · exact hp.recorded x (List.mem_cons_of_mem e hx)
  · rintro he
    exact (List.nodup_cons.1 hp.nodup).1 (he ▸ List.mem_map_of_mem hx)

theorem settle_pending {e : π × Int} {entries : List (π × Int)} :
    Script.Meets (OnHost fun h => Pending owner initial t (e :: entries) h ∧ h.files e.1 = e.2)
      (KernelSettings.settle env t e.1) (fun _ => OnHost (Pending owner initial t entries))
      fun _ => OnHost (Pending owner initial t (e :: entries)) := by
  apply (boundary_keeps (.onHost _)).bind_meets fun _ _ hw => hw.1
  intro _
  apply Script.Meets.bind (Q := fun _ => OnHost (Pending owner initial t entries))
  · exact Script.Meets.modify fun w hw => hw.1.delete hw.2
  · exact fun _ => Script.Meets.pure fun _ hw => hw

/-- One trip of `restore` settles its entry or leaves it recorded. -/
theorem restoreEntry_pending (e : π × Int) (entries : List (π × Int)) :
    Script.Meets (OnHost (Pending owner initial t (e :: entries)))
      (KernelSettings.restoreEntry env t e) (fun _ => OnHost (Pending owner initial t entries))
      fun _ => OnHost (Recoverable owner initial) := by
  apply Script.Meets.tryExcept (E := fun _ => OnHost (Pending owner initial t (e :: entries)))
  · apply (readInt_meets env e.1).bind
    intro current
    split
    · next heq =>
      subst heq
      exact settle_pending
    · apply Script.Meets.bind (Q := fun _ => OnHost (Pending owner initial t (e :: entries)))
      · exact (write_keeps (.onHost _) fun w v hp => hp.setFile v).mono (fun _ hw => hw.1)
          (fun _ _ hw => hw) fun _ _ hw => hw
      · intro _
        apply (readInt_meets env e.1).bind
        intro readback
        split
        · exact Script.Meets.raise fun _ hw => hw.1
        · next heq =>
          obtain rfl := not_not.1 heq
          exact settle_pending
  · intro x k hk
    cases x with
    | error kind message =>
      cases hk
      apply (boundary_keeps (.onHost _)).bind_meets fun _ _ hw => hw.recoverable
      intro _
      exact Script.Meets.pure fun _ hw => hw.skip
    | keyError => cases hk
    | keyboardInterrupt => cases hk
  · exact fun _ _ _ hw => hw.recoverable

/-- Restoring keeps the initial values recoverable, whatever step raises. -/
theorem restore_recoverable :
    Script.Keeps (OnHost (Recoverable owner initial)) (KernelSettings.restore env t) := by
  apply (boundary_keeps (.onHost _)).bind
  intro _
  apply Script.Meets.get_bind
  intro w hw
  have hloop := Script.Meets.collect (l := (w.host.transaction t).original.reverse)
    (f := KernelSettings.restoreEntry env t) (I := fun l => OnHost (Pending owner initial t l))
    (E := fun _ => OnHost (Recoverable owner initial)) restoreEntry_pending
  refine Script.Meets.bind (Q := fun _ => OnHost (Recoverable owner initial))
    (hloop.mono (fun _ hp => hp) (fun _ _ hp => hp.recoverable) fun _ _ hp => hp)
    (fun errors => ?_) w (hw.pending t)
  apply (boundary_keeps (.onHost _)).bind
  intro _
  apply (record_keeps (.onHost _) _).bind
  intro _
  split
  · exact Script.Keeps.raise _ _
  · exact Script.Keeps.pure _ _

end MmMem

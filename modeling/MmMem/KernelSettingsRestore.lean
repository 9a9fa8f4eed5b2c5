import MmMem.KernelSettingsInvariant

namespace MmMem
open Prog
set_option autoImplicit true

variable {π : Type}

def Event.ok : Event π → Bool
  | .read _ ok => ok
  | .refused _ _ => false
  | .write _ _ _ ok => ok
  | .run _ ok => ok
  | _ => true

def Event.isWrite : Event π → Bool
  | .refused _ _ => true
  | .write _ _ _ _ => true
  | _ => false

/-- Whether a signal that is not ignored is delivered at the end of this statement. -/
def interruptedAt (env : Env π) (w : World π) (k : Nat) : Bool :=
  (env.signals w.phase k).any fun s => !w.ignored s

/-- No signal is delivered that the handlers of this world do not ignore. -/
def Uninterrupted (env : Env π) (w : World π) : Prop := ∀ k, interruptedAt env w k = false

/-- A world reached from `w` with these new log entries, under the same handlers. -/
structure Reached (w : World π) (new : List (Phase × Event π)) (w' : World π) : Prop where
  log : w'.log = new ++ w.log
  phase : w'.phase = w.phase
  ignored : w'.ignored = w.ignored

variable {env : Env π} {t : Transaction} {w w' : World π} {p : π} {v : Int}

theorem Reached.refl (w : World π) : Reached w [] w := ⟨rfl, rfl, rfl⟩

theorem Reached.trans (h : Reached w new w') (h' : Reached w' new' w'') :
    Reached w (new' ++ new) w'' :=
  ⟨by rw [h'.log, h.log, List.append_assoc], h'.phase.trans h.phase, h'.ignored.trans h.ignored⟩

theorem Uninterrupted.reached (h : Uninterrupted env w) (hr : Reached w new w') :
    Uninterrupted env w' := by
  simp only [Uninterrupted, interruptedAt, hr.phase, hr.ignored]
  exact h

theorem boundary_passed (h : interruptedAt env w w.step = false) :
    boundary env w = (.ok (), { w with step := w.step + 1 }) := by
  rw [boundary_apply, ← interruptedAt, h]
  rfl

theorem boundary_stopped (h : interruptedAt env w w.step = true) :
    boundary env w = (.error .keyboardInterrupt, { w with step := w.step + 1 }) := by
  rw [boundary_apply, ← interruptedAt, h]
  rfl

theorem boundary_ok (h : Uninterrupted env w) :
    boundary env w = (.ok (), { w with step := w.step + 1 }) := boundary_passed (h w.step)

/-- Whether every access was made and did what it was for. -/
def allOk (new : List (Phase × Event π)) : Bool := new.all (·.2.ok)

theorem allOk_append (new' new : List (Phase × Event π)) :
    allOk (new' ++ new) = (allOk new' && allOk new) := List.all_append

/-- The accesses so far are all to path `p`, whose file alone may have changed. -/
structure Touching (w : World π) (p : π) (v : Int) (new : List (Phase × Event π)) (w' : World π) :
    Prop where
  reached : Reached w new w'
  about : ∀ ev ∈ new, ev.1 = w.phase ∧ ev.2.path? = some p
  writes : ∀ ev ∈ new, ev.2.isWrite = true → w.host.files p ≠ v
  others : ∀ q, q ≠ p → w'.host.files q = w.host.files q

theorem Touching.refl (w : World π) (p : π) (v : Int) : Touching w p v [] w :=
  ⟨.refl w, fun _ h => absurd h List.not_mem_nil, fun _ h => absurd h List.not_mem_nil,
    fun _ _ => rfl⟩

theorem Touching.step (h : Touching w p v new w') (n : Nat) :
    Touching w p v new { w' with step := n } :=
  ⟨⟨h.reached.log, h.reached.phase, h.reached.ignored⟩, h.about, h.writes, h.others⟩

theorem Touching.record (h : Touching w p v new w') {ev : Event π} (hp : ev.path? = some p)
    (hw : ev.isWrite = true → w.host.files p ≠ v) :
    Touching w p v ((w.phase, ev) :: new) (w'.record ev) where
  reached := ⟨by rw [World.record, h.reached.log, h.reached.phase]; rfl, h.reached.phase,
    h.reached.ignored⟩
  about := by
    intro x hx
    rcases List.mem_cons.1 hx with rfl | hx
    · exact ⟨rfl, hp⟩
    · exact h.about x hx
  writes := by
    intro x hx
    rcases List.mem_cons.1 hx with rfl | hx
    · exact hw
    · exact h.writes x hx
  others := h.others

/-- Accesses to `p` that leave the transactions alone, with whether a read was tried and whether
all went well. -/
def Accessed (w : World π) (p : π) (v : Int) (tried ok : Bool) (w' : World π) : Prop :=
  ∃ new, Touching w p v new w' ∧ w'.host.transaction = w.host.transaction ∧ allOk new = ok ∧
    (tried = true → ∃ b, (w.phase, .read p b) ∈ new)

theorem Accessed.refl (w : World π) (p : π) (v : Int) : Accessed w p v false true w :=
  ⟨[], .refl w p v, rfl, rfl, fun h => absurd h Bool.false_ne_true⟩

theorem Accessed.uninterrupted (h : Accessed w p v tried ok w') (hu : Uninterrupted env w) :
    Uninterrupted env w' := by
  obtain ⟨new, ht, -⟩ := h
  exact hu.reached ht.reached

theorem Accessed.step (h : Accessed w p v tried ok w') (n : Nat) :
    Accessed w p v tried ok { w' with step := n } := by
  obtain ⟨new, ht, htr, hok, hread⟩ := h
  exact ⟨new, ht.step n, htr, hok, hread⟩

theorem Accessed.read (h : Accessed w p v tried ok w') (b : Bool) :
    Accessed w p v true (b && ok) (w'.record (.read p b)) := by
  obtain ⟨new, ht, htr, rfl, -⟩ := h
  exact ⟨_, ht.record rfl fun h => absurd h Bool.false_ne_true, htr, rfl,
    fun _ => ⟨b, List.mem_cons_self⟩⟩

theorem Accessed.write (h : Accessed w p v tried ok w') {ev : Event π} (hp : ev.path? = some p)
    (hne : w.host.files p ≠ v) : Accessed w p v tried (ev.ok && ok) (w'.record ev) := by
  obtain ⟨new, ht, htr, rfl, hread⟩ := h
  refine ⟨_, ht.record hp fun _ => hne, htr, rfl, fun ht => ?_⟩
  obtain ⟨b, hb⟩ := hread ht
  exact ⟨b, List.mem_cons_of_mem _ hb⟩

theorem Accessed.setFile [DecidableEq π] (h : Accessed w p v tried ok w') (x : Int) :
    Accessed w p v tried ok (w'.withHost (w'.host.setFile p x)) := by
  obtain ⟨new, ht, htr, hok, hread⟩ := h
  refine ⟨new, ⟨⟨ht.reached.log, ht.reached.phase, ht.reached.ignored⟩, ht.about, ht.writes,
    fun q hq => ?_⟩, htr, hok, hread⟩
  exact (Host.setFile_files_ne _ _ hq).trans (ht.others q hq)

/-- The exceptions the `except` clause of `restore` handles. -/
def Exn.handled (x : Exn) : Prop := ∃ kind message, x = .error kind message

theorem boundary_accessed (hu : Uninterrupted env w) :
    Script.Meets (Accessed w p v tried ok) (boundary env) (fun _ => Accessed w p v tried ok) E := by
  intro w' hw
  rw [boundary_ok (hw.uninterrupted hu)]
  exact hw.step _

theorem readInt_accessed (hu : Uninterrupted env w) :
    Script.Meets (Accessed w p v tried ok) (readInt env p)
      (fun x w' => Accessed w p v true ok w' ∧ w'.host.files p = x)
      fun x w' => Accessed w p v true false w' ∧ x.handled := by
  apply (boundary_accessed hu).bind
  intro _ w' hw
  cases hf : env.readFails w'.phase w'.step with
  | none =>
    simp only [hf]
    exact ⟨hw.read true, rfl⟩
  | some e =>
    simp only [hf]
    exact ⟨hw.read false, e.1, e.2, rfl⟩

variable [DecidableEq π]

theorem writeFile_accessed (hne : w.host.files p ≠ v) :
    Script.Meets (Accessed w p v tried true) (writeFile env elevated p v)
      (fun _ w' => ∃ ok, Accessed w p v tried ok w' ∧ (ok = true ↔ w'.host.files p = v))
      fun x w' => Accessed w p v tried false w' ∧ x.handled := by
  intro w' hw
  rw [writeFile]
  cases env.writes w'.phase w'.step with
  | takes =>
    exact ⟨true, (hw.setFile v).write rfl hne, iff_of_true rfl (Host.setFile_files_self ..)⟩
  | clamps left =>
    refine ⟨left == v && true, (hw.setFile left).write rfl hne, ?_⟩
    rw [Bool.and_true, beq_iff_eq]
    exact (Host.setFile_files_self w'.host p left).symm ▸ Iff.rfl
  | fails kind message left =>
    refine ⟨?_, ?_⟩
    · cases left with
      | none => exact hw.write rfl hne
      | some x => exact (hw.setFile x).write rfl hne
    · split
      · exact ⟨_, _, rfl⟩
      · exact ⟨_, _, rfl⟩

theorem write_accessed (hu : Uninterrupted env w) (hne : w.host.files p ≠ v) :
    Script.Meets (Accessed w p v tried true) (KernelSettings.write env t p v)
      (fun _ w' => ∃ ok, Accessed w p v tried ok w' ∧ (ok = true ↔ w'.host.files p = v))
      fun x w' => Accessed w p v tried false w' ∧ x.handled := by
  apply (boundary_accessed hu).bind
  intro _
  apply Script.Meets.get_bind
  intro w' hw
  cases (w'.host.transaction t).privilege with
  | none => exact ⟨hw.write rfl hne, _, _, rfl⟩
  | some privilege => exact writeFile_accessed hne w' hw

/-- Whether an access to `p` went wrong. -/
def failedOn (new : List (Phase × Event π)) (p : π) : Bool :=
  new.any fun ev => decide (ev.2.path? = some p) && !ev.2.ok

/-- What `restore` has done for these entries since `w`. -/
structure Report (w : World π) (t : Transaction) (entries : List (π × Int))
    (new : List (Phase × Event π)) (w' : World π) : Prop where
  reached : Reached w new w'
  about : ∀ ev ∈ new, ev.1 = w.phase ∧ ∃ e ∈ entries, ev.2.path? = some e.1
  attempted : ∀ e ∈ entries, ∃ b, (w.phase, .read e.1 b) ∈ new
  writes : ∀ ev ∈ new, ev.2.isWrite = true →
    ∃ e ∈ entries, ev.2.path? = some e.1 ∧ w.host.files e.1 ≠ e.2
  others : ∀ q, (∀ e ∈ entries, q ≠ e.1) → w'.host.files q = w.host.files q
  restored : ∀ e ∈ entries, failedOn new e.1 = false → w'.host.files e.1 = e.2
  elsewhere : ∀ t', t' ≠ t → w'.host.transaction t' = w.host.transaction t'
  original : (w'.host.transaction t).original = (w.host.transaction t).original.filter fun x =>
    !entries.any (·.1 == x.1) || failedOn new x.1
  privilege : (w'.host.transaction t).privilege = (w.host.transaction t).privilege

theorem Report.nil (w : World π) (t : Transaction) : Report w t [] [] w where
  reached := .refl w
  about _ h := absurd h List.not_mem_nil
  attempted _ h := absurd h List.not_mem_nil
  writes _ h := absurd h List.not_mem_nil
  others _ _ := rfl
  restored _ h := absurd h List.not_mem_nil
  elsewhere _ _ := rfl
  original := (List.filter_eq_self.2 fun _ _ => rfl).symm
  privilege := rfl

theorem failedOn_append (new' new : List (Phase × Event π)) (p : π) :
    failedOn (new' ++ new) p = (failedOn new' p || failedOn new p) := List.any_append ..

theorem failedOn_of_allOk (h : allOk new = true) (p : π) : failedOn new p = false := by
  refine List.any_eq_false.2 fun ev hev => ?_
  rw [List.all_eq_true.1 h ev hev, Bool.not_true, Bool.and_false]
  exact Bool.false_ne_true

theorem Report.failedOn_other (h : Report w t entries new w') (hq : ∀ e ∈ entries, q ≠ e.1) :
    failedOn new q = false := by
  refine List.any_eq_false.2 fun ev hev => ?_
  obtain ⟨-, e, he, hp⟩ := h.about ev hev
  rw [hp, decide_eq_false fun heq => hq e he (Option.some.inj heq).symm, Bool.false_and]
  exact Bool.false_ne_true

theorem Report.cons (h : Report w t [e] new w₁) (h' : Report w₁ t entries new' w')
    (hnew : ∀ x ∈ entries, e.1 ≠ x.1) : Report w t (e :: entries) (new' ++ new) w' where
  reached := h.reached.trans h'.reached
  about := by
    intro ev hev
    rcases List.mem_append.1 hev with hev | hev
    · obtain ⟨hph, x, hx, hp⟩ := h'.about ev hev
      exact ⟨hph.trans h.reached.phase, x, List.mem_cons_of_mem e hx, hp⟩
    · obtain ⟨hph, x, hx, hp⟩ := h.about ev hev
      obtain rfl := List.mem_singleton.1 hx
      exact ⟨hph, x, List.mem_cons_self, hp⟩
  attempted := by
    intro x hx
    rcases List.mem_cons.1 hx with rfl | hx
    · obtain ⟨b, hb⟩ := h.attempted x (List.mem_singleton_self x)
      exact ⟨b, List.mem_append_right _ hb⟩
    · obtain ⟨b, hb⟩ := h'.attempted x hx
      exact ⟨b, List.mem_append_left _ (h.reached.phase ▸ hb)⟩
  writes := by
    intro ev hev hwr
    rcases List.mem_append.1 hev with hev | hev
    · obtain ⟨x, hx, hp, hne⟩ := h'.writes ev hev hwr
      refine ⟨x, List.mem_cons_of_mem e hx, hp, ?_⟩
      rwa [h.others x.1 fun y hy => List.mem_singleton.1 hy ▸ (hnew x hx).symm] at hne
    · obtain ⟨x, hx, hp, hne⟩ := h.writes ev hev hwr
      obtain rfl := List.mem_singleton.1 hx
      exact ⟨x, List.mem_cons_self, hp, hne⟩
  others := by
    intro q hq
    rw [h'.others q fun x hx => hq x (List.mem_cons_of_mem e hx),
      h.others q fun x hx => List.mem_singleton.1 hx ▸ hq e List.mem_cons_self]
  restored := by
    intro x hx hok
    rw [failedOn_append, Bool.or_eq_false_iff] at hok
    rcases List.mem_cons.1 hx with rfl | hx
    · rw [h'.others x.1 hnew]
      exact h.restored x (List.mem_singleton_self x) hok.2
    · exact h'.restored x hx hok.1
  elsewhere t' ht := (h'.elsewhere t' ht).trans (h.elsewhere t' ht)
  original := by
    rw [h'.original, h.original, List.filter_filter]
    refine List.filter_congr fun x hx => ?_
    rw [failedOn_append, List.any_cons, List.any_cons, List.any_nil, Bool.or_false]
    by_cases hxe : e.1 = x.1
    · rw [h'.failedOn_other (hxe ▸ hnew), List.any_eq_false.2 fun y hy => ?_]
      · simp only [Bool.not_false, Bool.true_and, Bool.or_false, Bool.false_or]
      · exact fun heq => hnew y hy (hxe.trans (eq_of_beq heq).symm)
    · rw [h.failedOn_other fun y hy => List.mem_singleton.1 hy ▸ fun heq => hxe heq.symm,
        beq_eq_false_iff_ne.2 hxe]
      simp only [Bool.not_false, Bool.and_true, Bool.or_false, Bool.false_or]
  privilege := h'.privilege.trans h.privilege

theorem Report.atStep (h : Report { w with step := n } t entries new w') (n' : Nat) :
    Report w t entries new { w' with step := n' } :=
  ⟨⟨h.reached.log, h.reached.phase, h.reached.ignored⟩, h.about, h.attempted, h.writes, h.others,
    h.restored, h.elsewhere, h.original, h.privilege⟩

theorem Touching.failedOn (h : Touching w p v new w') : failedOn new p = !allOk new := by
  rw [MmMem.failedOn, allOk, List.not_all_eq_any_not]
  rw [Bool.eq_iff_iff, List.any_eq_true, List.any_eq_true]
  refine exists_congr fun ev => and_congr_right fun hev => ?_
  rw [decide_eq_true (h.about ev hev).2, Bool.true_and]

theorem Accessed.report_failed {e : π × Int} (h : Accessed w e.1 e.2 true false w') :
    ∃ new, Report w t [e] new w' ∧ allOk new = false := by
  obtain ⟨new, ht, htr, hok, hread⟩ := h
  have hfailed : MmMem.failedOn new e.1 = true := by rw [ht.failedOn, hok, Bool.not_false]
  refine ⟨new, ?_, hok⟩
  exact {
    reached := ht.reached
    about := fun ev hev => ⟨(ht.about ev hev).1, e, List.mem_singleton_self e, (ht.about ev hev).2⟩
    attempted := fun x hx => List.mem_singleton.1 hx ▸ hread rfl
    writes := fun ev hev hwr =>
      ⟨e, List.mem_singleton_self e, (ht.about ev hev).2, ht.writes ev hev hwr⟩
    others := fun q hq => ht.others q (hq e (List.mem_singleton_self e))
    restored := fun x hx hfine => by
      rw [List.mem_singleton.1 hx, hfailed] at hfine
      exact absurd hfine.symm Bool.false_ne_true
    elsewhere := fun t' _ => congrFun htr t'
    original := by
      rw [htr, List.filter_eq_self.2 fun x _ => ?_]
      by_cases hx : e.1 = x.1
      · rw [← hx, hfailed, Bool.or_true]
      · rw [List.any_cons, List.any_nil, beq_eq_false_iff_ne.2 hx]
        rfl
    privilege := by rw [htr] }

theorem Accessed.report_settled {e : π × Int} (h : Accessed w e.1 e.2 true true w')
    (hf : w'.host.files e.1 = e.2) :
    ∃ new, Report w t [e] new (w'.withHost (w'.host.delete t e.1)) ∧ allOk new = true := by
  obtain ⟨new, ht, htr, hok, hread⟩ := h
  have hfine := failedOn_of_allOk hok
  refine ⟨new, ?_, hok⟩
  exact {
    reached := ⟨ht.reached.log, ht.reached.phase, ht.reached.ignored⟩
    about := fun ev hev => ⟨(ht.about ev hev).1, e, List.mem_singleton_self e, (ht.about ev hev).2⟩
    attempted := fun x hx => List.mem_singleton.1 hx ▸ hread rfl
    writes := fun ev hev hwr =>
      ⟨e, List.mem_singleton_self e, (ht.about ev hev).2, ht.writes ev hev hwr⟩
    others := fun q hq => ht.others q (hq e (List.mem_singleton_self e))
    restored := fun x hx _ => List.mem_singleton.1 hx ▸ hf
    elsewhere := fun t' hne => (Host.delete_ne w'.host e.1 hne).trans (congrFun htr t')
    original := by
      rw [World.withHost_host, Host.delete, Host.setOriginal_self, htr]
      refine List.filter_congr fun x _ => ?_
      rw [hfine, List.any_cons, List.any_nil, Bool.or_false, Bool.or_false, bne, Bool.beq_comm]
    privilege := by
      rw [World.withHost_host, Host.delete, Host.setOriginal_privilege, htr] }

/-- What one trip of `restore` leaves: a report, and a message exactly if an access failed. -/
def Settled (w : World π) (t : Transaction) (e : π × Int) (x : Option String) (w' : World π) :
    Prop :=
  ∃ new, Report w t [e] new w' ∧ (x = none ↔ allOk new = true)

theorem settle_report (hu : Uninterrupted env w) {e : π × Int} :
    Script.Meets (fun w' => Accessed w e.1 e.2 true true w' ∧ w'.host.files e.1 = e.2)
      (KernelSettings.settle env t e.1) (Settled w t e) E := by
  intro w' hw
  obtain ⟨hacc, hf⟩ := hw
  obtain ⟨new, hrep, hok⟩ := (hacc.step (w'.step + 1)).report_settled (t := t) hf
  rw [KernelSettings.settle, Script.bind_ok _ (boundary_ok (hacc.uninterrupted hu))]
  exact ⟨new, hrep, iff_of_true rfl hok⟩

/-- The check after a write: it settles the entry or finds that the write has failed. -/
theorem readback_report (hu : Uninterrupted env w) {e : π × Int} {ok : Bool} {w₂ : World π}
    (hacc : Accessed w e.1 e.2 true ok w₂) (hok : ok = true ↔ w₂.host.files e.1 = e.2) :
    Script.Post (Settled w t e) (fun x w' => Accessed w e.1 e.2 true false w' ∧ x.handled)
      ((readInt env e.1 >>= fun current =>
        if current ≠ e.2 then
          Script.raise (.error .runtimeError "readback differs from original value")
        else KernelSettings.settle env t e.1) w₂) := by
  have hsame := readInt_meets (J := fun h => h.files e.1 = w₂.host.files e.1) env e.1
  refine Script.Meets.bind (((readInt_accessed hu).and hsame).mono_raises fun _ _ h => h.1)
    (fun current => ?_) w₂ ⟨hacc, rfl⟩
  rintro w' ⟨⟨hacc, hcur⟩, hkept, -⟩
  split
  · next hne =>
    have hbad : ok = false := by
      rw [← Bool.not_eq_true, hok, ← hkept, hcur]
      exact hne
    exact ⟨hbad ▸ hacc, _, _, rfl⟩
  · next heq =>
    obtain rfl := not_not.1 heq
    have hgood : ok = true := hok.2 (hkept ▸ hcur)
    exact settle_report hu w' ⟨hgood ▸ hacc, hcur⟩

/-- One trip of `restore` without interruption: it never raises. -/
theorem restoreEntry_report (hu : Uninterrupted env w) (e : π × Int) :
    Script.Meets (· = w) (KernelSettings.restoreEntry env t e) (Settled w t e)
      fun _ _ => False := by
  have hsame := readInt_meets (J := (· = w.host)) env e.1
  apply Script.Meets.tryExcept
    (E := fun x w' => Accessed w e.1 e.2 true false w' ∧ x.handled)
  · intro w₀ hw₀
    rw [hw₀]
    refine Script.Meets.bind (((readInt_accessed hu).and hsame).mono_raises fun _ _ h => h.1)
      (fun current => ?_) w ⟨Accessed.refl w e.1 e.2, rfl⟩
    rintro w' ⟨⟨hacc, hcur⟩, hhost, -⟩
    split
    · next heq =>
      exact settle_report hu w' ⟨hacc, hcur.trans heq⟩
    · next hne =>
      have hdiff : w.host.files e.1 ≠ e.2 := by rwa [← hhost, hcur]
      refine Script.Meets.bind (write_accessed hu hdiff) (fun _ => ?_) w' hacc
      rintro w₂ ⟨ok, hacc, hok⟩
      exact readback_report hu hacc hok
  · rintro x k hk w' ⟨hacc, kind, message, rfl⟩
    cases hk
    rw [Script.bind_ok _ (boundary_ok (hacc.uninterrupted hu))]
    obtain ⟨new, hrep, hbad⟩ := (hacc.step (w'.step + 1)).report_failed (t := t)
    refine ⟨new, hrep, iff_of_false (Option.some_ne_none _) ?_⟩
    rw [hbad]
    exact Bool.false_ne_true
  · rintro x hn w' ⟨-, kind, message, rfl⟩
    cases hn

theorem collect_report (hu : Uninterrupted env w) {entries : List (π × Int)}
    (hnodup : (entries.map Prod.fst).Nodup) :
    ∃ errors new w', Script.collect entries (KernelSettings.restoreEntry env t) w =
      (.ok errors, w') ∧ Report w t entries new w' ∧ (errors = [] ↔ allOk new = true) := by
  induction entries generalizing w with
  | nil => exact ⟨[], [], w, rfl, .nil w t, iff_of_true rfl rfl⟩
  | cons e entries ih =>
    have hstep := restoreEntry_report (t := t) hu e w rfl
    cases hr : KernelSettings.restoreEntry env t e w with
    | mk r w₁ =>
      rw [hr] at hstep
      cases r with
      | error x => exact hstep.elim
      | ok x =>
        obtain ⟨new, hrep, hx⟩ := hstep
        obtain ⟨hnew, hrest⟩ := List.nodup_cons.1 hnodup
        obtain ⟨errors, new', w', hloop, hrep', hok⟩ := ih (hu.reached hrep.reached) hrest
        refine ⟨_, new' ++ new, w', Script.collect_cons_ok hr hloop, hrep.cons hrep' fun y hy heq =>
          hnew (heq ▸ List.mem_map_of_mem hy), ?_⟩
        rw [allOk_append, List.append_eq_nil_iff, Option.toList_eq_nil_iff, hx, hok,
          Bool.and_eq_true, and_comm]

/-- A restoration that no signal interrupts settles every entry it can, and raises a
`RuntimeError` exactly if an access failed. -/
theorem restore_report (hu : Uninterrupted env w)
    (hnodup : ((w.host.transaction t).original.map Prod.fst).Nodup) :
    ∃ o new w', KernelSettings.restore env t w = (o, w'.record (.restored t)) ∧
      Report w t (w.host.transaction t).original.reverse new w' ∧
      ((o = .ok () ∧ allOk new = true) ∨
        ((∃ message, o = .error (.error .runtimeError message)) ∧ allOk new = false)) := by
  rw [← List.nodup_reverse, ← List.map_reverse] at hnodup
  have hu' : Uninterrupted env { w with step := w.step + 1 } := hu
  obtain ⟨errors, new, w', hloop, hrep, hok⟩ := collect_report (t := t) hu' hnodup
  rw [KernelSettings.restore, Script.bind_ok _ (boundary_ok hu),
    Script.bind_ok _ (Script.get_apply _),
    Script.bind_ok _ hloop, Script.bind_ok _ (boundary_ok (hu'.reached hrep.reached))]
  cases errors with
  | nil => exact ⟨_, new, _, rfl, hrep.atStep _, .inl ⟨rfl, hok.1 rfl⟩⟩
  | cons message errors =>
    refine ⟨_, new, _, rfl, hrep.atStep _, .inr ⟨⟨_, rfl⟩, ?_⟩⟩
    rw [← Bool.not_eq_true, ← hok]
    exact List.cons_ne_nil _ _

end MmMem

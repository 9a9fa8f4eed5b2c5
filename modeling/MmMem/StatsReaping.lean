import MmMem.StatsReports

namespace MmMem
open Prog
set_option autoImplicit true

variable {host : StatsHost} {args : StatsArgs} {I : Collection → Prop}

/-- The process has been waited for, and its pipe is closed if it has one. -/
def Reaped (proc : Nat) (s : Collection) : Prop :=
  At proc (fun c => c.returncode ≠ none) s ∧ At proc (fun c => c.stdout ≠ some true) s

theorem persistent_reaped (proc : Nat) : Persistent (Reaped proc) :=
  (persistent_waited proc).and (persistent_closed proc)

theorem terminateProcesses_meets (hI : Persistent I) (processes : List Nat) :
    Script.Meets I (terminateProcesses host processes) (fun _ => I) fun _ s => I s ∧ Raised s := by
  apply Script.Meets.forEach_mem
  intro proc _
  apply (poll_meets hI proc).bind
  intro code
  exact Script.Meets.whenever fun _ => terminate_meets hI proc

/-- A process that ignores `terminate` is killed, and waited for like the others. -/
theorem waitOrKill_meets (hI : Persistent I) (proc : Nat) :
    Script.Meets (fun s => I s ∧ proc < s.children.length) (waitOrKill host proc)
      (fun _ s => I s ∧ At proc (fun c => c.returncode ≠ none) s) fun _ s => I s ∧ Raised s := by
  have hwaited : ∀ (status : Option Int) (s : Collection), (I s ∧ ∃ v, status = some v ∧
      At proc (fun c => c.returncode = some v) s) →
        I s ∧ At proc (fun c => c.returncode ≠ none) s := by
    rintro status s ⟨hs, v, -, c, hc, hv⟩
    exact ⟨hs, c, hc, fun hnone => nomatch hv.symm.trans hnone⟩
  refine Script.Meets.tryExcept ((waitTimeout_meets hI timeoutExpired).mono_returns hwaited) ?_ ?_
  · intro e k hk
    have hkill : Script.Meets (fun s => I s ∧ proc < s.children.length)
        (do
          kill host.toProcHost proc
          wait host.toProcHost proc)
        (fun _ s => I s ∧ At proc (fun c => c.returncode ≠ none) s)
        fun _ s => I s ∧ Raised s :=
      ((kill_meets (hI.and (persistent_lt proc)) proc).mono_raises
        fun _ _ h => ⟨h.1.1, h.2⟩).bind fun _ => (wait_meets hI).mono_returns hwaited
    split at hk
    · cases hk
      exact hkill.mono (fun _ h => h.1) (fun _ _ h => h) fun _ _ h => h
    · cases hk
  · intro e hnone s hs
    refine ⟨hs.1.1, hs.2.resolve_left ?_⟩
    rintro rfl
    cases hnone

theorem reap_meets (hI : Persistent I) (proc : Nat) :
    Script.Meets (fun s => I s ∧ proc < s.children.length)
      (do
        let _ ← waitOrKill host proc
        let pipe ← piped proc
        Script.whenever pipe (closeStdout host.toProcHost proc))
      (fun _ s => I s ∧ Reaped proc s) fun _ s => I s ∧ Raised s := by
  have hlt := hI.and (persistent_lt proc)
  have hwaited := hI.and (persistent_waited proc)
  have hdrop : ∀ (e : Exn) (s : Collection), (I s ∧ At proc (fun c => c.returncode ≠ none) s) ∧
      Raised s → I s ∧ Raised s := fun _ _ h => ⟨h.1.1, h.2⟩
  refine Script.Meets.bind (Q := fun _ s => (I s ∧ At proc (fun c => c.returncode ≠ none) s) ∧
    proc < s.children.length) ?_ fun _ => ?_
  · refine ((waitOrKill_meets hlt proc).mono (fun s h => ⟨h, h.2⟩) ?_ ?_)
    · exact fun _ s h => ⟨⟨h.1.1, h.2⟩, h.1.2⟩
    · exact fun _ s h => ⟨h.1.1, h.2⟩
  refine Script.Meets.bind piped_meets fun pipe => ?_
  cases pipe with
  | false =>
    rintro s ⟨⟨⟨hs, hdone⟩, -⟩, hclosed⟩
    exact ⟨hs, hdone, hclosed rfl⟩
  | true =>
    refine (closeStdout_meets hwaited).mono (fun _ h => h.1) ?_ hdrop
    exact fun _ s h => ⟨h.1.1, h.1.2, h.2⟩

theorem reapProcesses_meets (hI : Persistent I) {processes : List Nat} :
    Script.Meets (fun s => I s ∧ ∀ proc ∈ processes, proc < s.children.length)
      (reapProcesses host processes) (fun _ s => I s ∧ ∀ proc ∈ processes, Reaped proc s)
      fun _ s => I s ∧ Raised s := by
  let J := fun (left : List Nat) (s : Collection) => I s ∧
    (∀ proc ∈ processes, proc < s.children.length) ∧ (∀ proc ∈ left, proc ∈ processes) ∧
      ∀ proc ∈ processes, proc ∉ left → Reaped proc s
  have hJ : ∀ left, Persistent (J left) := by
    rintro left s s' h ⟨hs, hlt, hleft, hdone⟩
    exact ⟨hI s s' h hs, fun proc hproc => persistent_lt proc s s' h (hlt proc hproc), hleft,
      fun proc hproc hnot => persistent_reaped proc s s' h (hdone proc hproc hnot)⟩
  refine (Script.Meets.forEach (I := J) fun proc left => ?_).mono ?_ ?_ fun _ _ h => h
  · refine (reap_meets (hJ (proc :: left)) proc).mono (fun s h => ⟨h, ?_⟩) ?_ ?_
    · exact h.2.1 proc (h.2.2.1 proc List.mem_cons_self)
    · rintro _ s ⟨⟨hs, hlt, hleft, hdone⟩, hreaped⟩
      refine ⟨hs, hlt, fun p hp => hleft p (List.mem_cons_of_mem _ hp), fun p hp hnot => ?_⟩
      by_cases he : p = proc
      · rwa [he]
      · exact hdone p hp (List.not_mem_cons_of_ne_of_not_mem he hnot)
    · exact fun _ s h => ⟨h.1.1, h.2⟩
  · exact fun s h => ⟨h.1, h.2, fun _ hp => hp, fun p hp hnot => absurd hp hnot⟩
  · exact fun _ s h => ⟨h.1, fun p hp => h.2.2.2 p hp List.not_mem_nil⟩

/-- The `finally` clause reaps every process that has been started. -/
theorem reapAll_meets (hI : Persistent I) (hbegun : ∀ s, I s → Begun host args s) :
    Script.Meets I (reapAll host)
      (fun _ s => I s ∧ ∀ proc < s.children.length, Reaped proc s) fun _ s => I s ∧ Raised s := by
  apply Script.Meets.get_bind
  intro s hs
  have hprocesses : s.locals = List.range s.children.length := by
    obtain ⟨commands, h, -⟩ := hbegun s hs
    rw [h.processes, h.length]
  have hkept : Persistent fun s' => I s' ∧ s'.children.length = s.children.length :=
    hI.and fun _ _ h hlen => h.length.trans hlen
  refine Script.Meets.bind ((terminateProcesses_meets hkept s.locals).mono_raises
    fun _ _ h => ⟨h.1.1, h.2⟩) (fun _ => ?_) s ⟨hs, rfl⟩
  refine (reapProcesses_meets hkept).mono (fun s' h => ⟨h, ?_⟩) ?_ fun _ _ h => ⟨h.1.1, h.2⟩
  · intro proc hproc
    rw [hprocesses, List.mem_range] at hproc
    rwa [h.2]
  · rintro _ s' ⟨⟨hs', hlen⟩, hdone⟩
    refine ⟨hs', fun proc hproc => hdone proc ?_⟩
    rwa [hprocesses, List.mem_range, ← hlen]

theorem handleError_meets (hk : handleError host e = some k) :
    Script.Meets (Stopped host args) k (fun code s => Stopped host args s ∧ code ≠ 0)
      fun _ => Stopped host args := by
  have hprint : ∀ text, Script.Meets (Stopped host args)
      (do
        printError host.toProcHost text
        pure 1) (fun (code : Int) s => Stopped host args s ∧ code ≠ 0)
      fun _ => Stopped host args := fun text =>
    ((printError_meets (persistent_stopped host args) text).mono_raises
      fun _ _ h => h.1).bind fun _ => .pure fun _ h => ⟨h, by decide⟩
  unfold handleError at hk
  split at hk
  · cases hk
    exact hprint _
  · cases hk
    exact hprint _
  · cases hk
    exact .pure fun _ h => ⟨h, by decide⟩
  · cases hk

/-- What `main` leaves: every process reaped where it returns, and in any case an exit code only
where nothing has stopped it. -/
theorem measureStats_meets :
    Script.Post
      (fun code s => (Finished host args code s ∨ Stopped host args s ∧ code ≠ 0) ∧
        ∀ proc < s.children.length, Reaped proc s)
      (fun _ s => Stopped host args s) (measureStats host args) := by
  have hbody : Script.Meets (Launched [])
      (Script.tryExcept (collectReports host args) (handleError host))
      (fun code s => Finished host args code s ∨ Stopped host args s ∧ code ≠ 0)
      fun _ => Stopped host args :=
    Script.Meets.tryExcept (collectReports_meets.mono_returns fun _ _ h => .inl h)
      (fun e k hk => (handleError_meets hk).mono_returns fun _ _ h => .inr h) fun _ _ _ h => h
  have hstart : Launched [] ⟨[], [], []⟩ :=
    ⟨rfl, rfl, rfl, fun before proc after h => nomatch List.append_eq_nil_iff.1 h.symm⟩
  refine Script.Meets.tryFinally_of hbody (fun code => ?_) (fun e => ?_) _ hstart
  · have hkept : Persistent fun s =>
        Finished host args code s ∨ Stopped host args s ∧ code ≠ 0 := by
      intro s s' h hs
      exact hs.imp (persistent_finished host args code s s' h)
        (And.imp_left (persistent_stopped host args s s' h))
    have hbegun : ∀ s, (Finished host args code s ∨ Stopped host args s ∧ code ≠ 0) →
        Begun host args s := fun s hs => hs.elim Finished.begun fun h => h.1.1
    refine (reapAll_meets hkept hbegun).mono_raises ?_
    exact fun _ s h => ⟨hbegun s h.1, .inl h.2⟩
  · refine (reapAll_meets (persistent_stopped host args) fun s h => h.1).mono (fun _ h => h) ?_ ?_
    · exact fun _ _ h => h.1
    · exact fun _ _ h => h.1

theorem measurePmu_ne (interval : Nat) (pid : Text) :
    measurePmu interval pid ≠ measureCpuUtil interval := by
  intro h
  exact absurd (List.cons.inj h).1 (by decide)

theorem prefix_collectors {proc : Nat} (hfirst : commands <+: collectors args pids)
    (hproc : commands[proc]? = some (measureCpuUtil args.interval)) :
    commands = collectors args pids := by
  have hget := List.prefix_iff_getElem?.1 hfirst
  obtain ⟨hlt, hproc⟩ := List.getElem?_eq_some_iff.1 hproc
  have hlast : pids.length ≤ proc := by
    by_contra hle
    have hcounter := hget proc hlt
    rw [hproc, collectors, List.getElem?_append_left (by rw [List.length_map]; omega),
      List.getElem?_map] at hcounter
    obtain ⟨pid, -, hpid⟩ := Option.map_eq_some_iff.1 hcounter
    exact measurePmu_ne args.interval pid hpid
  apply hfirst.eq_of_length_le
  rw [length_collectors]
  omega

theorem Finished.commands (h : Finished host args code s) :
    ∃ pids, host.getPids args = .ok pids ∧
      s.children.map (·.command) = collectors args pids := by
  obtain ⟨pids, hpids, hs, -⟩ := h
  exact ⟨pids, hpids, hs.children⟩

theorem exists_of_forall₂ {R : β → γ → Prop} (h : List.Forall₂ R l l') (hb : b ∈ l) :
    ∃ c ∈ l', R b c := by
  induction h with
  | nil => cases hb
  | cons hr _ ih =>
    rcases List.mem_cons.1 hb with rfl | hb
    · exact ⟨_, List.mem_cons_self, hr⟩
    · obtain ⟨c, hc, hr⟩ := ih hb
      exact ⟨c, List.mem_cons_of_mem _ hc, hr⟩

theorem Finished.code_iff (h : Finished host args code s) :
    code = 0 ↔ ∀ child ∈ s.children, child.exited = some 0 := by
  obtain ⟨pids, -, hs, codes, hcoded, rfl⟩ := h
  have hcode : (if codes.any (· ≠ 0) then 1 else 0 : Int) = 0 ↔ ∀ v ∈ codes, v = 0 := by
    rw [ite_eq_right_iff]
    simp
  rw [hcode]
  have hlength : s.children.length = pids.length + 1 := by rw [hs.length, length_collectors]
  constructor
  · intro hzero child hchild
    obtain ⟨proc, hproc⟩ := List.mem_iff_getElem?.1 hchild
    have hmem : proc ∈ pids.length :: List.range pids.length := by
      obtain ⟨hlt, -⟩ := List.getElem?_eq_some_iff.1 hproc
      rw [List.mem_cons, List.mem_range]
      omega
    obtain ⟨v, hv, c, hc, hreturncode⟩ := exists_of_forall₂ hcoded hmem
    cases hproc.symm.trans hc
    rw [← hzero v hv]
    exact Child.exited_of_returncode hreturncode
  · intro hzero v hv
    obtain ⟨proc, -, c, hc, hreturncode⟩ := exists_of_forall₂ hcoded.flip hv
    have hexited := hzero c (List.mem_of_getElem? hc)
    rw [Child.exited_of_returncode hreturncode] at hexited
    exact Option.some.inj hexited

/-- However `main` ends, only collectors have been started, in their order. -/
theorem measureStats_begun (host : StatsHost) (args : StatsArgs) :
    Begun host args (measureStats host args).2 := by
  have h : Script.Post _ _ (measureStats host args) := measureStats_meets
  cases hr : measureStats host args with
  | mk r s =>
    rw [hr] at h
    cases r with
    | ok code => exact h.1.elim Finished.begun fun hs => hs.1.1
    | error e => exact h.1

theorem Begun.waits (h : Begun host args s) (hpids : host.getPids args = .ok pids)
    (htrace : s.trace = before ++ .waits proc :: after)
    (hmpstat : (s.children.map (·.command))[proc]? = some (measureCpuUtil args.interval)) :
    startedIn before = collectors args pids := by
  obtain ⟨commands, hs, hfirst⟩ := h
  have hlt := hs.waits before proc after htrace
  have hstarted : commands = startedIn before ++ startedIn (.waits proc :: after) := by
    rw [← hs.trace, htrace, startedIn_append]
  rw [hs.children, hstarted, List.getElem?_append_left hlt] at hmpstat
  apply prefix_collectors _ hmpstat
  refine List.IsPrefix.trans ?_ (hfirst pids hpids)
  rw [hstarted]
  exact List.prefix_append ..

/-- `main` reaps what it has started, waits for mpstat only when all collectors have been started,
and returns 0 just if all have ended with status 0. -/
theorem stats_collection_reaps (host : StatsHost) (args : StatsArgs) :
    (∀ code, (measureStats host args).1 = .ok code →
      ∀ child ∈ (measureStats host args).2.children,
        child.returncode ≠ none ∧ child.stdout ≠ some true) ∧
    (∀ pids before proc after, host.getPids args = .ok pids →
      (measureStats host args).2.trace = before ++ .waits proc :: after →
      ((measureStats host args).2.children.map (·.command))[proc]? =
        some (measureCpuUtil args.interval) →
      startedIn before = collectors args pids) ∧
    ((measureStats host args).1 = .ok 0 → ∃ pids, host.getPids args = .ok pids ∧
      (measureStats host args).2.children.map (·.command) = collectors args pids ∧
      ∀ child ∈ (measureStats host args).2.children, child.exited = some 0) ∧
    ∀ pids, host.getPids args = .ok pids →
      (measureStats host args).2.children.map (·.command) = collectors args pids →
      (∀ child ∈ (measureStats host args).2.children, child.exited = some 0) →
      (∀ e, .raised e ∉ (measureStats host args).2.trace) →
        (measureStats host args).1 = .ok 0 := by
  have h : Script.Post _ _ (measureStats host args) := measureStats_meets
  have hbegun := measureStats_begun host args
  cases hr : measureStats host args with
  | mk r s =>
    rw [hr] at h hbegun
    refine ⟨?_, fun pids before proc after hpids => hbegun.waits hpids, ?_, ?_⟩
    · rintro code rfl child hchild
      obtain ⟨proc, hproc⟩ := List.mem_iff_getElem?.1 hchild
      obtain ⟨hlt, -⟩ := List.getElem?_eq_some_iff.1 hproc
      obtain ⟨⟨c, hc, hwaited⟩, c', hc', hclosed⟩ := h.2 proc hlt
      cases hproc.symm.trans hc
      cases hproc.symm.trans hc'
      exact ⟨hwaited, hclosed⟩
    · rintro rfl
      have hfinished := h.1.resolve_right fun hstopped => hstopped.2 rfl
      obtain ⟨pids, hpids, hcommands⟩ := hfinished.commands
      exact ⟨pids, hpids, hcommands, hfinished.code_iff.1 rfl⟩
    · intro pids hpids _ hzero hquiet
      have hgoes : ¬ Stopped host args s := by
        rintro ⟨-, ⟨e, he⟩ | ⟨e, he⟩⟩
        · exact hquiet e he
        · cases hpids.symm.trans he
      cases r with
      | ok code =>
        have hfinished := h.1.resolve_right fun hstopped => hgoes hstopped.1
        rw [hfinished.code_iff.2 hzero]
      | error e => exact absurd h hgoes

/-- An interrupt comes while mpstat is waited for, and both processes ignore `terminate`. -/
def stubbornHost : StatsHost where
  raises n := if n = 2 then some .keyboardInterrupt else none
  exits _ _ := none
  status _ _ := 0
  timesOut _ := true
  reaps _ := false
  closes _ := false
  output _ _ := []
  getPids _ := .ok [['7']]

example : (measureStats stubbornHost ⟨5, by decide, some ['7'], none, .inr rfl⟩).1 = .ok 130 ∧
    (measureStats stubbornHost ⟨5, by decide, some ['7'], none, .inr rfl⟩).2.children.map
      (·.returncode) = [some (-9), some (-9)] := by
  decide +kernel

end MmMem

import MmMem.StatsCollection
import Mathlib.Data.List.Forall2

namespace MmMem
open Prog
set_option autoImplicit true

/-- Only processes that have been started are waited for. -/
def WaitsStarted (trace : List (ProcEvent Exn)) : Prop :=
  ∀ before proc after, trace = before ++ .waits proc :: after → proc < (startedIn before).length

/-- What has been started, in this order, and is in `processes`. -/
structure Launched (commands : List (List Text)) (s : Collection) : Prop where
  children : s.children.map (·.command) = commands
  trace : startedIn s.trace = commands
  processes : s.locals = List.range commands.length
  waits : WaitsStarted s.trace

theorem Launched.length (h : Launched commands s) : s.children.length = commands.length := by
  rw [← h.children, List.length_map]

theorem WaitsStarted.append (h : WaitsStarted trace)
    (hevents : ∀ proc, .waits proc ∈ events → proc < (startedIn trace).length) :
    WaitsStarted (trace ++ events) := by
  intro before proc after he
  rcases List.append_eq_append_iff.1 he.symm with ⟨rest, rfl, hafter⟩ | ⟨rest, rfl, hafter⟩
  · cases rest with
    | nil =>
      have hmem : .waits proc ∈ events := by
        rw [List.nil_append] at hafter
        rw [← hafter]
        exact List.mem_cons_self
      simpa using hevents proc hmem
    | cons event rest =>
      cases hafter
      exact h before proc rest rfl
  · have hmem : .waits proc ∈ events := by
      rw [hafter]
      exact List.mem_append_right rest List.mem_cons_self
    have hlt := hevents proc hmem
    rw [startedIn_append, List.length_append]
    omega

theorem persistent_launched (commands : List (List Text)) : Persistent (Launched commands) := by
  intro s s' h hs
  refine ⟨h.commands.trans hs.children, h.startedIn.trans hs.trace, h.locals.trans hs.processes, ?_⟩
  obtain ⟨events, ht, -, hwaits⟩ := h.trace
  rw [ht]
  apply hs.waits.append
  intro proc hproc
  rw [hs.trace, ← hs.length]
  exact hwaits proc hproc

section Launch

variable {host : StatsHost} {args : StatsArgs} {pids : List Text} {commands : List (List Text)}

theorem start_meets {k : Nat → Script Exn Collection α} {R : α → Collection → Prop}
    {E : Exn → Collection → Prop} (command : List Text) (pipe : Bool)
    (hk : Script.Meets (Launched (commands ++ [command])) (k commands.length) R E)
    (hE : ∀ e s, Launched commands s ∧ Raised s → E e s) :
    Script.Meets (Launched commands)
      (do
        let proc ← popen host.toProcHost command pipe
        appendProcess proc
        k proc) R E := by
  refine Script.Meets.bind
    (Q := fun proc s => proc = commands.length ∧
      Launched (commands ++ [command]) { s with locals := s.locals ++ [proc] })
    ((popen_meets (persistent_launched commands) ?_).mono_raises hE) ?_
  · intro s child hs hchild
    refine ⟨hs.length, ?_, ?_, ?_, ?_⟩
    · rw [List.map_append, hs.children, List.map_singleton, hchild]
    · rw [startedIn_append, hs.trace]
      rfl
    · rw [hs.processes, hs.length, List.length_append, List.length_singleton, List.range_succ]
    · exact hs.waits.append fun proc hproc => nomatch List.mem_singleton.1 hproc
  · rintro proc s ⟨rfl, hs⟩
    exact hk _ hs

/-- The counter collectors are started in the order of their process IDs. -/
theorem startCounters_meets :
    Script.Meets (Launched []) (startCounters host args pids)
      (fun reports s => Launched (pids.map (measurePmu args.interval)) s ∧
        reports.map Prod.snd = List.range pids.length)
      fun _ s => ∃ started, started <+: pids ∧
        Launched (started.map (measurePmu args.interval)) s ∧ Raised s := by
  let I := fun (reports : List (Text × Nat)) (left : List Text) (s : Collection) =>
    ∃ started, started ++ left = pids ∧ Launched (started.map (measurePmu args.interval)) s ∧
      reports.map Prod.snd = List.range started.length
  have htrip : ∀ reports pid left, Script.Meets (I reports (pid :: left))
      (do
        let proc ← popen host.toProcHost (measurePmu args.interval pid) true
        appendProcess proc
        pure (reports ++ [(pid, proc)])) (fun reports => I reports left)
      fun _ s => ∃ started, started <+: pids ∧
        Launched (started.map (measurePmu args.interval)) s ∧ Raised s := by
    rintro reports pid left s ⟨started, hpids, hs, hreports⟩
    refine start_meets _ true ?_ ?_ s hs
    · intro s hs
      refine ⟨started ++ [pid], ?_, ?_, ?_⟩
      · rw [List.append_assoc, List.singleton_append, hpids]
      · rw [List.map_append, List.map_singleton]
        exact hs
      · rw [List.map_append, hreports, List.length_append, List.length_singleton, List.range_succ,
          List.length_map]
        rfl
    · exact fun _ s h => ⟨started, ⟨pid :: left, hpids⟩, h⟩
  refine (Script.Meets.fold htrip).mono ?_ ?_ fun _ _ h => h
  · exact fun s hs => ⟨[], rfl, hs, rfl⟩
  · rintro reports s ⟨started, hpids, hs, hreports⟩
    rw [List.append_nil] at hpids
    exact ⟨hpids ▸ hs, hpids ▸ hreports⟩

end Launch

/-- The processes have been waited for, and ended with these codes. -/
def Coded (procs : List Nat) (codes : List Int) (s : Collection) : Prop :=
  List.Forall₂ (fun i v => At i (fun c => c.returncode = some v) s) procs codes

theorem persistent_coded (procs : List Nat) (codes : List Int) :
    Persistent (Coded procs codes) := by
  intro s s' h hs
  exact hs.imp fun i v hv => persistent_returncode i v s s' h hv

section Reports

variable {host : StatsHost} {args : StatsArgs} {commands : List (List Text)}

theorem readReports_meets {reports : List (Text × Nat)} {procs : List Nat}
    (hreports : ∀ proc ∈ reports.map Prod.snd, proc < commands.length) :
    Script.Meets
      (fun s => Launched commands s ∧ ∃ codes, Coded procs codes s ∧ failed = codes.any (· ≠ 0))
      (readReports host reports failed)
      (fun failed s => Launched commands s ∧
        ∃ codes, Coded (procs ++ reports.map Prod.snd) codes s ∧ failed = codes.any (· ≠ 0))
      fun _ s => Launched commands s ∧ Raised s := by
  let I := fun (failed : Bool) (left : List (Text × Nat)) (s : Collection) =>
    Launched commands s ∧ ∃ read codes, read ++ left = reports ∧
      Coded (procs ++ read.map Prod.snd) codes s ∧ failed = codes.any (· ≠ 0)
  refine (Script.Meets.fold (I := I) ?_).mono ?_ ?_ fun _ _ h => h
  · rintro failed ⟨pid, proc⟩ left s ⟨hs, read, codes, hall, hcoded, hfailed⟩
    have hkept : Persistent fun s =>
        Launched commands s ∧ Coded (procs ++ read.map Prod.snd) codes s :=
      (persistent_launched commands).and (persistent_coded _ codes)
    have hwaited := hkept.and (persistent_waited proc)
    have hproc : proc < s.children.length := by
      rw [hs.length]
      apply hreports
      rw [← hall, List.map_append]
      exact List.mem_append_right _ List.mem_cons_self
    have hstops : ∀ (e : Exn) (s : Collection), ((Launched commands s ∧
        Coded (procs ++ read.map Prod.snd) codes s) ∧ At proc (fun c => c.returncode ≠ none) s) ∧
          Raised s → Launched commands s ∧ Raised s := fun _ _ h => ⟨h.1.1.1, h.2⟩
    refine Script.Meets.bind ((communicate_meets hkept).mono_raises
      fun _ _ h => ⟨h.1.1, h.2⟩) (fun output => ?_) s ⟨⟨hs, hcoded⟩, hproc⟩
    refine ((print_meets hwaited _).mono_raises hstops).bind fun _ => ?_
    refine ((print_meets hwaited _).mono_raises hstops).bind fun _ => ?_
    refine returncode_meets.bind fun code => .pure ?_
    rintro s ⟨⟨hs, hcoded⟩, v, rfl, hv⟩
    refine ⟨hs, read ++ [(pid, proc)], codes ++ [v], ?_, ?_, ?_⟩
    · rw [List.append_assoc, List.singleton_append, hall]
    · rw [List.map_append, ← List.append_assoc]
      exact List.rel_append hcoded (.cons hv .nil)
    · rw [List.any_append, ← hfailed, Bool.or_comm]
      simp
  · rintro s ⟨hs, codes, hcoded, hfailed⟩
    exact ⟨hs, [], codes, rfl, by rwa [List.map_nil, List.append_nil], hfailed⟩
  · rintro failed s ⟨hs, read, codes, hall, hcoded, hfailed⟩
    rw [List.append_nil] at hall
    exact ⟨hs, codes, hall ▸ hcoded, hfailed⟩

end Reports

section Outcomes

variable (host : StatsHost) (args : StatsArgs)

/-- Only collectors have been started, in their order. -/
def Begun (s : Collection) : Prop :=
  ∃ commands, Launched commands s ∧
    ∀ pids, host.getPids args = .ok pids → commands <+: collectors args pids

/-- An error or an interrupt has stopped the script. -/
def Stopped (s : Collection) : Prop :=
  Begun host args s ∧ (Raised s ∨ ∃ e, host.getPids args = .error e)

/-- All collectors have been started and waited for, and the exit code tells how they ended. -/
def Finished (code : Int) (s : Collection) : Prop :=
  ∃ pids, host.getPids args = .ok pids ∧ Launched (collectors args pids) s ∧
    ∃ codes, Coded (pids.length :: List.range pids.length) codes s ∧
      code = if codes.any (· ≠ 0) then 1 else 0

theorem persistent_begun : Persistent (Begun host args) := by
  rintro s s' h ⟨commands, hs, hfirst⟩
  exact ⟨commands, persistent_launched commands s s' h hs, hfirst⟩

theorem persistent_stopped : Persistent (Stopped host args) := by
  rintro s s' h ⟨hbegun, hwhy⟩
  exact ⟨persistent_begun host args s s' h hbegun, hwhy.imp_left (persistent_raised s s' h)⟩

theorem persistent_finished (code : Int) : Persistent (Finished host args code) := by
  rintro s s' h ⟨pids, hpids, hs, codes, hcoded, hcode⟩
  exact ⟨pids, hpids, persistent_launched _ s s' h hs, codes, persistent_coded _ _ s s' h hcoded,
    hcode⟩

variable {host args}

theorem length_collectors (args : StatsArgs) (pids : List Text) :
    (collectors args pids).length = pids.length + 1 := by
  rw [collectors, List.length_append, List.length_map, List.length_singleton]

theorem Launched.begun (hs : Launched commands s) (hpids : host.getPids args = .ok pids)
    (hfirst : commands <+: collectors args pids) : Begun host args s := by
  refine ⟨commands, hs, fun pids' hpids' => ?_⟩
  cases hpids.symm.trans hpids'
  exact hfirst

theorem Finished.begun (h : Finished host args code s) : Begun host args s := by
  obtain ⟨pids, hpids, hs, -⟩ := h
  exact hs.begun hpids (List.prefix_refl _)

theorem collectReports_meets :
    Script.Meets (Launched []) (collectReports host args) (Finished host args)
      fun _ => Stopped host args := by
  intro s hs
  rw [collectReports, Script.ofExcept_bind]
  cases hpids : host.getPids args with
  | error e => exact ⟨⟨[], hs, fun pids _ => List.nil_prefix⟩, .inr ⟨e, hpids⟩⟩
  | ok pids =>
    have hstops : ∀ (commands : List (List Text)), commands <+: collectors args pids →
        ∀ (e : Exn) (s : Collection), Launched commands s ∧ Raised s → Stopped host args s :=
      fun commands hfirst _ s h => ⟨h.1.begun hpids hfirst, .inl h.2⟩
    have hcounters : pids.map (measurePmu args.interval) <+: collectors args pids :=
      List.prefix_append ..
    refine Script.Meets.bind (startCounters_meets.mono_raises ?_)
      (fun reports => ?_) s hs
    · rintro e s ⟨started, ⟨left, hall⟩, h⟩
      refine hstops _ (List.IsPrefix.trans ?_ hcounters) e s h
      rw [← hall, List.map_append]
      exact List.prefix_append ..
    rintro s ⟨hs, hreports⟩
    refine start_meets (measureCpuUtil args.interval) false ?_ (hstops _ hcounters) s hs
    rw [List.length_map]
    have hlaunched := persistent_launched (collectors args pids)
    have hall := hstops _ (List.prefix_refl (collectors args pids))
    refine Script.Meets.bind ((wait_meets hlaunched).mono (fun s hs => ⟨hs, ?_⟩) (fun _ _ h => h)
      hall) fun code => ?_
    · rw [hs.length, ← collectors, length_collectors]
      exact Nat.lt_succ_self _
    rintro s ⟨hs, v, rfl, hv⟩
    refine Script.Meets.bind ((readReports_meets ?_).mono_raises hall) (fun failed => .pure ?_) s
      ⟨hs, [v], .cons hv .nil, ?_⟩
    · intro proc hproc
      rw [hreports, List.mem_range] at hproc
      rw [length_collectors]
      omega
    · rintro s ⟨hs, codes, hcoded, rfl⟩
      rw [hreports] at hcoded
      exact ⟨pids, hpids, hs, codes, hcoded, rfl⟩
    · simp

end Outcomes

end MmMem

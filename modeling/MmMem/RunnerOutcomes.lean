import MmMem.RunnerSetups

namespace MmMem
open Prog
set_option autoImplicit true

/-- The ordinary measurements are those without huge pages. -/
def ordinary (commands : List (List String)) : List (List String) :=
  commands.filter fun command => !command.contains "-H"

/-- Every access succeeds of the rollback after a failed setup through this transaction. -/
def rollbackSucceeds (env : Env HostPath) (m : Machine) (args : Args) (files : HostPath → Int)
    (t : Transaction) : Bool :=
  match preflight env m args (.start files) with
  | (.ok (_, autonuma, privilege), w) =>
    match setupThrough env m args autonuma privilege t { w with phase := .body, step := 0 } with
    | (.ok _, _) => true
    | (.error _, w') => allOk ((KernelSettings.restore env t w').2.since w')
  | _ => true

/-- The machines differ at most in the access they give and in what their nodes offer. -/
structure SameBench (m m' : Machine) : Prop where
  isLinux : m.isLinux = m'.isLinux
  allowedCpus : m.allowedCpus = m'.allowedCpus
  executable : m.executable = m'.executable
  binPath : m.binPath = m'.binPath
  nodes : m.nodes.length = m'.nodes.length

variable {env : Env HostPath} {m : Machine} {args : Args} {w : World HostPath}
  {files : HostPath → Int} {ran : List (List String)}

theorem benchmark_runs (henv : Undisturbed env) (hdry : args.dryRun = false)
    (privileged : Option (List String)) (b : Benchmark) :
    Script.Meets (After ran) (b.run env m args privileged)
      (fun _ => After (ran ++ [b.command m args privileged])) fun _ _ => False := by
  have hboundary : Script.Completes (After ran) (boundary env) := by
    intro w hw
    rw [boundary_ok (henv.unstopped hw.1)]
    exact hw
  apply hboundary.bind
  intro _
  apply Script.Meets.bind (Q := fun _ => After ran)
  · exact Script.Meets.modify fun w hw => hw.record rfl
  intro _
  rw [hdry]
  apply hboundary.bind
  intro _ w hw
  rw [runCommand, hw.1, henv.runs]
  refine ⟨hw.1, ?_⟩
  rw [Ran, ranCommands_record, hw.2]
  rfl

theorem benchmarks_run (henv : Undisturbed env) (hdry : args.dryRun = false)
    (privileged : Option (List String)) (plan : List Benchmark) (ran : List (List String)) :
    Script.Meets (After ran) (Script.forEach plan (Benchmark.run env m args privileged))
      (fun _ => After (ran ++ plan.map (Benchmark.command m args privileged)))
      fun _ _ => False := by
  induction plan generalizing ran with
  | nil =>
    rw [List.map_nil, List.append_nil]
    exact Script.Meets.pure fun _ hw => hw
  | cons b plan ih =>
    rw [List.map_cons, List.append_cons]
    apply (benchmark_runs henv hdry privileged b).bind
    intro _
    exact ih _

theorem testPlan_huge (h : b ∈ testPlan selected matrices size) (hb : b.huge = true) :
    "-H" ∈ b.options := by
  have hoptions : "-H" ∈ hugeOptions size := by simp [hugeOptions]
  rcases mem_testPlan.1 h with ⟨-, rfl | ⟨-, rfl⟩⟩ | ⟨-, rfl | ⟨-, mix, -, rfl⟩ | rfl | rfl⟩ |
      ⟨-, rfl | ⟨-, rfl⟩⟩
  · cases hb
  · exact List.mem_append_right _ hoptions
  · cases hb
  · cases hb
  · cases hb
  · cases hb
  · cases hb
  · exact hoptions

theorem testPlan_ordinary (selected : List Test) (matrices : Bool) (size : Nat) :
    (testPlan selected matrices size).filter (!·.huge) = testPlan selected matrices 0 := by
  have hhuge : ∀ name options, (hugeBenchmarks name options size).filter (!·.huge) = [] := by
    intro name options
    rw [hugeBenchmarks]
    split
    · rfl
    · rfl
  simp only [testPlan, List.filter_append, apply_ite (List.filter _), hhuge]
  rfl

theorem ordinary_cons (command : List String) (l : List (List String)) :
    ordinary (command :: l) = ordinary [command] ++ ordinary l := List.filter_append [command] l

theorem ordinary_commands {plan : List Benchmark}
    (hplan : ∀ b ∈ plan, b.huge = true → "-H" ∈ b.options) (privileged : Option (List String)) :
    ordinary (plan.map (Benchmark.command m args privileged)) =
      ordinary ((plan.filter (!·.huge)).map (Benchmark.command m args none)) := by
  induction plan with
  | nil => rfl
  | cons b plan ih =>
    rw [List.map_cons, ordinary_cons, ih fun c hc => hplan c (List.mem_cons_of_mem b hc),
      List.filter_cons]
    cases hb : b.huge with
    | true =>
      have hmem : "-H" ∈ b.command m args privileged :=
        List.mem_append_right _ (hplan b List.mem_cons_self hb)
      have hnone : ordinary [b.command m args privileged] = [] := by
        rw [ordinary, List.filter_singleton, List.contains_iff_mem.2 hmem]
        rfl
      rw [hnone]
      rfl
    | false =>
      have hsame : b.command m args privileged = b.command m args none := by
        rw [Benchmark.command, Benchmark.command, hb]
        rfl
      rw [hsame, ← ordinary_cons]
      rfl

theorem runTests_runs (henv : Undisturbed env) (hdry : args.dryRun = false)
    (hsize : HugeSize size) (selected : List Test) (matrices : Bool)
    (privileged : Option (List String)) :
    Script.Meets (After []) (runTests env m args selected matrices size privileged)
      (fun _ => After ((testPlan selected matrices size).map (Benchmark.command m args privileged)))
      fun _ _ => False := by
  rw [runTests_plan hsize]
  exact benchmarks_run henv hdry privileged _ []

theorem ordinary_plan (m : Machine) (args : Args) (selected : List Test) (matrices : Bool)
    (size : Nat) (privileged : Option (List String)) :
    ordinary ((testPlan selected matrices size).map (Benchmark.command m args privileged)) =
      ordinary ((testPlan selected matrices 0).map (Benchmark.command m args none)) := by
  rw [ordinary_commands fun _ => testPlan_huge, testPlan_ordinary]

/-- Before the `try` statement, having changed nothing and run nothing. -/
structure Starting (files : HostPath → Int) (w : World HostPath) : Prop where
  phase : w.phase = .preflight
  files : w.host.files = files
  ran : Ran [] w

theorem Starting.record (h : Starting files w) {e : Event HostPath} (he : e.ran? = none) :
    Starting files (w.record e) := ⟨h.phase, h.files, h.ran.record he⟩

theorem Starting.boundary (henv : Undisturbed env) :
    Script.Completes (Starting files) (boundary env) := by
  intro w hw
  rw [boundary_ok (henv.uninterrupted (hw.phase ▸ Phase.noConfusion))]
  exact ⟨hw.phase, hw.files, hw.ran⟩

theorem Starting.checkAutonuma (henv : Undisturbed env) :
    Script.Completes (Starting files) (checkAutonuma env) := by
  have hread : Script.Meets (Starting files) (readInt env .numaBalancing)
      (fun _ => Starting files)
      fun e w => Starting files w ∧ ∃ message, e = .error .osError message := by
    apply (Starting.boundary henv).bind
    intro _ w hw
    cases hf : env.readFails w.phase w.step with
    | none =>
      simp only [hf]
      exact hw.record rfl
    | some failure =>
      obtain ⟨kind, message⟩ := failure
      simp only [hf]
      rw [hw.phase] at hf
      obtain rfl := henv.preflight _ _ _ hf
      exact ⟨hw.record rfl, _, rfl⟩
  apply Script.Meets.tryExcept
  · apply hread.bind
    intro value
    exact Script.Meets.pure fun _ hw => hw
  · rintro e k hk w ⟨hw, message, rfl⟩
    cases hk
    exact hw
  · rintro e hnone w ⟨hw, message, rfl⟩
    cases hnone

theorem Starting.detectPrivilege : Script.Completes (Starting files) (detectPrivilege m args) := by
  rw [MmMem.detectPrivilege]
  split
  · exact Script.Completes.pure _ _
  rw [privilegePrefix]
  split
  · exact Script.Completes.pure _ _
  split
  · apply Script.Completes.bind fun w hw => hw.record rfl
    intro _
    split
    · exact Script.Completes.pure _ _
    · exact Script.Completes.pure _ _
  · exact Script.Completes.pure _ _

theorem preflight_completes (henv : Undisturbed env) (hargs : checkArguments m args = .ok ()) :
    Script.Meets (Starting files) (preflight env m args)
      (fun found w => found.1 = (!m.nodes.isEmpty && !args.noMatrices) ∧
        w.host = .fresh files found.2.2 ∧ Ran [] w) fun _ _ => False := by
  apply (Starting.boundary henv).bind
  intro _
  rw [hargs]
  apply (Starting.checkAutonuma henv).bind
  intro autonuma
  apply (Starting.boundary henv).bind
  intro _
  apply Starting.detectPrivilege.bind
  intro privilege
  apply (Starting.boundary henv).bind
  intro _ w hw
  exact ⟨rfl, congrArg (Host.fresh · privilege) hw.files, hw.ran⟩

theorem tryBlock_runs (henv : Undisturbed env) (hw : Underway files w) (hdry : args.dryRun = false)
    (hmode : args.hugepages ≠ .existing) (matrices : Bool) (autonuma : Option Int)
    (privilege : Option (List String))
    (hroll : ∀ t e w', setupThrough env m args autonuma privilege t w = (.error e, w') →
      allOk ((KernelSettings.restore env t w').2.since w') = true) :
    ∃ size privileged, Ran ((testPlan args.selected matrices size).map
      (Benchmark.command m args privileged))
        (tryBlock env m args matrices autonuma privilege w).2 := by
  obtain ⟨size, privileged, w', heq, hsize, hw'⟩ := configureHost_returns henv hw hdry hmode
    autonuma privilege hroll
  refine ⟨size, privileged, ?_⟩
  have hstart : After [] { w' with step := w'.step + 1 } := hw'.2
  obtain ⟨_, w'', hruns, -, hran⟩ := (runTests_runs henv hdry hsize args.selected matrices
    privileged).returns hstart
  have htry : tryBlock env m args matrices autonuma privilege w = (.ok (), w'') := by
    rw [tryBlock, ← bind_assoc, Script.bind_ok _ heq, ← hruns]
    exact Script.bind_ok _ (boundary_ok (henv.unstopped hw'.2.1))
  rw [htry]
  exact hran

theorem finallyBlock_ran : Script.Keeps (Ran ran) (finallyBlock env args) := by
  have hconf : Configures env (fun _ => True) (Ran ran) :=
    .of_blindAt (fun _ _ => Ran.blindAt) fun _ _ hw => hw.record rfl
  exact ControlBlind.finallyBlock (fun _ _ _ _ hw => hw) hconf.restore args

/-- The ordinary commands `main` executes: those planned without huge pages, or none at all if
the arguments fail a check. -/
def ordinaryPlan (m : Machine) (args : Args) : List (List String) :=
  match checkArguments m args with
  | .ok () => ordinary ((testPlan args.selected (!m.nodes.isEmpty && !args.noMatrices) 0).map
      (Benchmark.command m args none))
  | .error _ => []

theorem main_ordinary (henv : Undisturbed env) (hdry : args.dryRun = false)
    (hmode : args.hugepages ≠ .existing)
    (hroll : ∀ t, rollbackSucceeds env m args files t = true) :
    ordinary (ranCommands (main env m args (.start files)).2.log) = ordinaryPlan m args := by
  have hstart : Starting files (.start files) := ⟨rfl, rfl, rfl⟩
  cases hargs : checkArguments m args with
  | error e =>
    have hpre : preflight env m args (.start files) =
        (.error e, { World.start files with step := 1 }) := by
      rw [preflight, Script.bind_ok _ (boundary_ok (henv.uninterrupted Phase.noConfusion)), hargs]
      rfl
    rw [main, Script.bind_error _ hpre, ordinaryPlan, hargs]
    rfl
  | ok u =>
    obtain ⟨⟨matrices, autonuma, privilege⟩, w, hpre, hmatrices, hhost, hran⟩ :=
      (preflight_completes henv hargs).returns hstart
    obtain rfl : matrices = _ := hmatrices
    have hw : Underway files { w with phase := .body, step := 0 } := by
      refine ⟨?_, rfl, hran⟩
      rw [show World.host _ = _ from hhost]
      exact Recoverable.fresh _ _ _
    obtain ⟨size, privileged, hblock⟩ := tryBlock_runs henv hw hdry hmode
      (!m.nodes.isEmpty && !args.noMatrices) autonuma privilege fun t e w' h => by
        have ht := hroll t
        rw [rollbackSucceeds, hpre] at ht
        dsimp only at ht
        rw [h] at ht
        exact ht
    have hentry : finallyEntry env m args (.start files) = some (tryBlock env m args
        (!m.nodes.isEmpty && !args.noMatrices) autonuma privilege
          { w with phase := .body, step := 0 }).2 := by
      rw [finallyEntry, hpre]
    have hlog : Ran _ (main env m args (.start files)).2 :=
      (main_entered hentry).1 ▸ finallyBlock_ran.state hblock
    rw [show ranCommands _ = _ from hlog, ordinary_plan, ordinaryPlan, hargs]

theorem SameBench.checkArguments (h : SameBench m m') (args : Args) :
    checkArguments m args = checkArguments m' args := by
  simp only [MmMem.checkArguments, h.isLinux, h.allowedCpus, h.executable]

theorem SameBench.ordinaryPlan (h : SameBench m m') (args : Args) :
    ordinaryPlan m args = ordinaryPlan m' args := by
  have hnodes : m.nodes.isEmpty = m'.nodes.isEmpty := by
    rw [Bool.eq_iff_iff, List.isEmpty_iff_length_eq_zero, List.isEmpty_iff_length_eq_zero, h.nodes]
  have hcommand : Benchmark.command m args none = Benchmark.command m' args none := by
    funext b
    rw [Benchmark.command, Benchmark.command, benchmarkCommand, benchmarkCommand, h.binPath]
  rw [MmMem.ordinaryPlan, MmMem.ordinaryPlan, h.checkArguments, hnodes, hcommand]

/-- The outcome of the setups never changes the ordinary measurements: on any two hosts with the
same benchmarks they are the ones planned without huge pages, whatever access there is and
whichever setup fails, as long as its rollback does not. -/
theorem ordinary_measurements_agree (env env' : Env HostPath) (m m' : Machine) (args : Args)
    (files files' : HostPath → Int) (hdry : args.dryRun = false)
    (hmode : args.hugepages = .auto ∨ args.hugepages = .off) (hsame : SameBench m m')
    (henv : Undisturbed env) (henv' : Undisturbed env')
    (hroll : ∀ t, rollbackSucceeds env m args files t = true)
    (hroll' : ∀ t, rollbackSucceeds env' m' args files' t = true) :
    let measured := ordinary (ranCommands (main env m args (.start files)).2.log)
    measured = ordinary (ranCommands (main env' m' args (.start files')).2.log) ∧
      measured = ordinaryPlan m args := by
  have hmode : args.hugepages ≠ .existing := by
    rcases hmode with h | h
    · exact h ▸ HugePageMode.noConfusion
    · exact h ▸ HugePageMode.noConfusion
  have hfirst := main_ordinary henv hdry hmode hroll
  have hsecond := main_ordinary henv' hdry hmode hroll'
  refine ⟨?_, hfirst⟩
  rw [hfirst, hsecond, hsame.ordinaryPlan args]

/-- A host without access, and one on which both setups fail. -/
theorem ordinary_measurements_agree_denied :
    let args : Args := ⟨⟨5, by decide⟩, [.idleLatency], none, none, false, .auto, false, false,
      false, false⟩
    let denied : Machine := ⟨true, false, false, false, 8, fun _ => true, id, [⟨0, none, []⟩]⟩
    let root : Machine := ⟨true, true, false, false, 8, fun _ => true, id,
      [⟨4, some 4194304, [2048]⟩]⟩
    let takes : Env HostPath := ⟨fun _ _ => [], fun _ _ => none, fun _ _ => .takes,
      fun _ _ => none, fun _ => "path"⟩
    let fails : Env HostPath := { takes with
      writes := fun _ k => if k = 5 ∨ k = 19 then .fails .osError "refused" (some 3) else .takes }
    ordinary (ranCommands (main takes denied args (.start fun _ => 1)).2.log) =
      ordinary (ranCommands (main fails root args (.start fun _ => 1)).2.log) := by
  intro args denied root takes fails
  have htakes : Undisturbed takes := ⟨fun _ _ _ => rfl, nofun, nofun, nofun, fun _ => rfl⟩
  have hwrites : ∀ k kind message left, fails.writes .body k = .fails kind message left →
      kind ≠ .valueError := by
    intro k kind message left h
    by_cases hk : k = 5 ∨ k = 19
    · rw [show fails.writes .body k = _ from if_pos hk] at h
      cases h
      exact ErrorKind.noConfusion
    · rw [show fails.writes .body k = _ from if_neg hk] at h
      cases h
  have hfails : Undisturbed fails := ⟨fun _ _ _ => rfl, nofun, nofun, hwrites, fun _ => rfl⟩
  have hdenied : ∀ t, rollbackSucceeds takes denied args (fun _ => 1) t = true := by
    intro t
    cases t
    · decide +kernel
    · decide +kernel
  have hroot : ∀ t, rollbackSucceeds fails root args (fun _ => 1) t = true := by
    intro t
    cases t
    · decide +kernel
    · decide +kernel
  exact (ordinary_measurements_agree takes fails denied root args _ _ rfl (.inl rfl)
    ⟨rfl, rfl, rfl, rfl, rfl⟩ htakes hfails hdenied hroot).1

end MmMem

import MmMem.RunnerSetups

namespace MmMem
open Prog
set_option autoImplicit true

/-- What has happened so far, the first event first. -/
def World.events (w : World HostPath) : List (Event HostPath) := w.log.reverse.map Prod.snd

/-- A benchmark command is announced or run. -/
def Event.isCommand : Event HostPath → Bool
  | .announce _ => true
  | .run _ _ => true
  | _ => false

/-- What `run_benchmark` leaves in the log. -/
def commandEvents (dryRun ok : Bool) (command : List String) : List (Event HostPath) :=
  .announce command :: if dryRun then [] else [.run command ok]

/-- What is left in the log if every command succeeds. -/
def planEvents (dryRun : Bool) (commands : List (List String)) : List (Event HostPath) :=
  commands.flatMap (commandEvents dryRun true)

/-- A plan as far as it has been carried out: it stops at the first command that fails, or that a
signal keeps from being announced, run or followed by another. -/
inductive PlanRun (dryRun : Bool) (commands : List (List String)) : List (Event HostPath) → Prop
  | finished : PlanRun dryRun commands (planEvents dryRun commands)
  | stopped (passed later : List (List String)) (command : List String)
    (tail : List (Event HostPath)) (hcommands : commands = passed ++ command :: later)
    (htail : tail <+: commandEvents dryRun false command) :
    PlanRun dryRun commands (planEvents dryRun passed ++ tail)

/-- The calls a run makes if it comes to this size of huge pages. -/
def Args.plan (m : Machine) (args : Args) (hugeSize : Nat) : List Benchmark :=
  testPlan args.selected (!m.nodes.isEmpty && !args.noMatrices) hugeSize

/-- The size of huge pages and the prefix of their commands that a run may come to. -/
structure HugeChoice (m : Machine) (args : Args) (hugeSize : Nat)
    (privileged : Option (List String)) : Prop where
  picked : hugeSize = 0 ∨ hugeSize = pickHugePageSize m.nodes (getMemInfo m.nodes)
  wanted : hugeSize ≠ 0 → args.latencyRequested = true ∧ args.hugepages ≠ .off
  /-- nothing can keep a rehearsal, or a run on pages that exist, from their size -/
  sure : args.dryRun = true ∨ args.hugepages = .existing → args.latencyRequested = true →
    args.hugepages ≠ .off → hugeSize = pickHugePageSize m.nodes (getMemInfo m.nodes)
  prefixed : hugeSize ≠ 0 → privileged = none ∨
    (privileged = some [] ∨ privileged = some ["sudo", "-n", "--"]) ∧
      args.hugepages = .auto ∧ (args.noSystemConfig || args.dryRun) = false

variable {env : Env HostPath} {m : Machine} {args : Args} {w : World HostPath} {t : Transaction}
  {files : HostPath → Int} {before : List (Event HostPath)}

@[simp] theorem World.events_record (w : World HostPath) (e : Event HostPath) :
    (w.record e).events = w.events ++ [e] := by
  rw [World.events, World.record, List.reverse_cons, List.map_append]
  rfl

theorem planEvents_append (dryRun : Bool) (commands commands' : List (List String)) :
    planEvents dryRun (commands ++ commands') =
      planEvents dryRun commands ++ planEvents dryRun commands' := List.flatMap_append

theorem planEvents_singleton (dryRun : Bool) (command : List String) :
    planEvents dryRun [command] = commandEvents dryRun true command := List.flatMap_singleton ..

theorem Event.isCommand_of_path {e : Event HostPath} (h : e.path? = some p) :
    e.isCommand = false := by
  cases e with
  | announce command => cases h
  | run command ok => cases h
  | _ => rfl

theorem HugeChoice.offered (h : HugeChoice m args hugeSize privileged) : HugeSize hugeSize := by
  rcases h.picked with rfl | rfl
  · exact .inl rfl
  · exact pickHugePageSize_hugeSize m.nodes

/-- Since these events there have been no commands. -/
def Since (before : List (Event HostPath)) (w : World HostPath) : Prop :=
  ∃ new, w.events = before ++ new ∧ ∀ e ∈ new, e.isCommand = false

theorem Since.refl (w : World HostPath) : Since w.events w :=
  ⟨[], (List.append_nil _).symm, nofun⟩

theorem Since.record (h : Since before w) {e : Event HostPath} (he : e.isCommand = false) :
    Since before (w.record e) := by
  obtain ⟨new, hnew, hquiet⟩ := h
  refine ⟨new ++ [e], ?_, fun x hx => ?_⟩
  · rw [World.events_record, hnew, List.append_assoc]
  · rcases List.mem_append.1 hx with hx | hx
    · exact hquiet x hx
    · exact List.mem_singleton.1 hx ▸ he

theorem Since.configures (env : Env HostPath) (before : List (Event HostPath)) :
    Configures env (fun _ => True) (Since before) := by
  refine .of_blindAt (fun t p => ?_) fun _ _ hw => hw.record rfl
  have hframe : FrameAt p (Since before) :=
    ⟨fun _ _ hw => hw, fun _ _ hp hw => hw.record (Event.isCommand_of_path hp)⟩
  exact ⟨hframe, fun v => hframe.write fun _ _ hw => hw, fun _ _ hw => hw⟩

theorem Since.controlBlind (before : List (Event HostPath)) : ControlBlind (Since before) :=
  fun _ _ _ _ hw => hw

theorem finallyBlock_since : Script.Keeps (Since before) (finallyBlock env args) :=
  (Since.controlBlind before).finallyBlock (Since.configures env before).restore args

/-- The access is root's, that of `sudo`, or none; what the caller forbids is not looked for. -/
def Privileged (args : Args) (privilege : Option (List String)) : Prop :=
  privilege = none ∨ (privilege = some [] ∨ privilege = some ["sudo", "-n", "--"]) ∧
    (args.noSystemConfig || args.dryRun) = false

theorem detectPrivilege_access : Script.Ensures (fun _ => True) (detectPrivilege m args)
    fun privilege _ => Privileged args privilege := by
  rw [detectPrivilege]
  split
  · exact Script.Ensures.pure fun _ _ => .inl rfl
  next hallowed =>
  have hallowed := Bool.eq_false_iff.2 hallowed
  rw [privilegePrefix]
  split
  · exact Script.Ensures.pure fun _ _ => .inr ⟨.inl rfl, hallowed⟩
  split
  · apply Script.Ensures.bind (Q := fun _ _ => True) (Script.Meets.of_true _)
    intro _
    split
    · exact Script.Ensures.pure fun _ _ => .inr ⟨.inr rfl, hallowed⟩
    · exact Script.Ensures.pure fun _ _ => .inl rfl
  · exact Script.Ensures.pure fun _ _ => .inl rfl

theorem preflight_found : Script.Ensures (fun _ => True) (preflight env m args)
    fun found _ => found.1 = (!m.nodes.isEmpty && !args.noMatrices) ∧ Privileged args found.2.2 := by
  apply Script.Ensures.bind (Q := fun _ _ => True) (Script.Meets.of_true _)
  intro _
  cases checkArguments m args with
  | error e => exact Script.Ensures.raise
  | ok u =>
    apply Script.Ensures.bind (Q := fun _ _ => True) (Script.Meets.of_true _)
    intro autonuma
    apply Script.Ensures.bind (Q := fun _ _ => True) (Script.Meets.of_true _)
    intro _
    apply detectPrivilege_access.bind
    intro privilege w haccess
    refine Script.Ensures.bind (P := fun _ => True) (Q := fun _ _ => True)
      (Script.Meets.of_true _) (fun _ => ?_) w trivial
    apply Script.Ensures.bind (Q := fun _ _ => True) (Script.Meets.of_true _)
    exact fun _ => Script.Ensures.pure fun _ _ => ⟨rfl, haccess⟩

theorem setupHugePages_size (env : Env HostPath) (t : Transaction) (nodes : List NumaNode)
    (drop compact : Bool) : Script.Ensures (fun _ => True)
      (setupHugePages env t nodes drop compact)
      fun size _ => size = pickHugePageSize nodes (getMemInfo nodes) := by
  apply Script.Ensures.bind (Q := fun _ _ => True) (Script.Meets.of_true _)
  intro _
  dsimp only
  split
  · exact Script.Ensures.raise
  apply Script.Ensures.bind (Q := fun _ _ => True) (Script.Meets.of_true _)
  intro _
  apply Script.Ensures.bind (Q := fun _ _ => True) (Script.Meets.of_true _)
  intro _
  apply Script.Ensures.bind (Q := fun _ _ => True) (Script.Meets.of_true _)
  exact fun _ => Script.Ensures.pure fun _ _ => rfl

theorem provisionHugePages_size (before : List (Event HostPath)) :
    Script.Meets (Since before) (provisionHugePages env m args)
      (fun size w => Since before w ∧
        (size = 0 ∨ size = pickHugePageSize m.nodes (getMemInfo m.nodes))) fun _ => Since before := by
  have hI := Since.configures env before
  apply Script.Meets.tryExcept (E := fun _ => Since before)
  · have hkeeps := hI.setupHugePages trivial m.nodes args.dropCaches args.compact
    have hsize := setupHugePages_size env .hugeSettings m.nodes args.dropCaches args.compact
    apply (hkeeps.and hsize).mono
    · exact fun w hw => ⟨hw, trivial⟩
    · exact fun size w hw => ⟨hw.1, .inr hw.2⟩
    · exact fun e w hw => hw.1
  · intro e k hk
    split at hk
    · cases hk
      apply (hI.restore _).bind_meets fun _ _ hw => hw
      exact fun _ => Script.Meets.pure fun w hw => ⟨hw, .inl rfl⟩
    · cases hk
  · exact fun _ _ _ hw => hw

/-- The choice a rehearsal announces. -/
theorem HugeChoice.planned {privilege : Option (List String)} (hdry : args.dryRun = true)
    (haccess : Privileged args privilege) :
    HugeChoice m args (plannedHugePages m args privilege).1
      (plannedHugePages m args privilege).2 := by
  have hnone : privilege = none := by
    rcases haccess with h | ⟨-, h⟩
    · exact h
    · rw [hdry, Bool.or_true] at h
      cases h
  subst hnone
  rw [plannedHugePages]
  split
  · next hwanted =>
    rw [Bool.and_eq_true, bne_iff_ne] at hwanted
    exact ⟨.inr rfl, fun _ => hwanted, fun _ _ _ => rfl, fun _ => .inl rfl⟩
  · next hwanted =>
    rw [Bool.and_eq_true, bne_iff_ne] at hwanted
    exact ⟨.inl rfl, (absurd rfl ·), fun _ hl hoff => absurd ⟨hl, hoff⟩ hwanted, (absurd rfl ·)⟩

/-- The choice of a run that is no rehearsal, by the mode of its huge pages. -/
theorem chosenHugePages_chooses {privilege : Option (List String)} (hdry : args.dryRun ≠ true)
    (haccess : Privileged args privilege) (before : List (Event HostPath)) :
    Script.Meets (Since before) (chosenHugePages env m args privilege)
      (fun x w => Since before w ∧ HugeChoice m args x.1 x.2) fun _ => Since before := by
  rw [chosenHugePages]
  split
  · next hauto =>
    simp only [Bool.and_eq_true, beq_iff_eq] at hauto
    obtain ⟨⟨hlatency, hmode⟩, -⟩ := hauto
    apply (provisionHugePages_size before).bind
    intro size
    refine Script.Meets.pure fun w hw => ⟨hw.1, hw.2, fun _ => ⟨hlatency, ?_⟩, ?_, fun _ => ?_⟩
    · exact hmode ▸ HugePageMode.noConfusion
    · rintro (hdry' | hmode')
      · exact absurd hdry' hdry
      · rw [hmode] at hmode'
        cases hmode'
    · exact haccess.imp_right fun h => ⟨h.1, hmode, h.2⟩
  next hauto =>
  split
  · next hexisting =>
    rw [Bool.and_eq_true, beq_iff_eq] at hexisting
    dsimp only
    split
    · exact Script.Meets.raise fun _ hw => hw
    refine Script.Meets.pure fun w hw => ⟨hw, .inr rfl, fun _ => ⟨hexisting.1, ?_⟩, ?_, ?_⟩
    · exact hexisting.2 ▸ HugePageMode.noConfusion
    · exact fun _ _ _ => rfl
    · exact fun _ => .inl rfl
  · next hexisting =>
    refine Script.Meets.pure fun w hw => ⟨hw, .inl rfl, (absurd rfl ·), ?_, (absurd rfl ·)⟩
    rintro (hdry' | hmode) hlatency -
    · exact absurd hdry' hdry
    · rw [hlatency, hmode] at hexisting
      exact absurd rfl hexisting

/-- The `try` block chooses the huge pages before it runs a command. -/
theorem configureHost_chooses {privilege : Option (List String)}
    (haccess : Privileged args privilege)
    (autonuma : Option Int) (before : List (Event HostPath)) :
    Script.Meets (Since before) (configureHost env m args autonuma privilege)
      (fun x w => Since before w ∧ HugeChoice m args x.1 x.2) fun _ => Since before := by
  have hI := Since.configures env before
  rw [configureHost]
  split
  · next hdry => exact Script.Meets.pure fun w hw => ⟨hw, .planned hdry haccess⟩
  · next hdry =>
    apply (hI.disableBalancing autonuma privilege fun _ => trivial).bind_meets fun _ _ hw => hw
    intro _
    apply hI.boundary.bind_meets fun _ _ hw => hw
    exact fun _ => chosenHugePages_chooses hdry haccess before

theorem runBenchmark_events (name : String) (options : List String)
    (privileged : Option (List String)) (before : List (Event HostPath)) :
    let command := benchmarkCommand m args name options privileged
    Script.Meets (fun w => w.events = before) (runBenchmark env m args name options privileged)
      (fun _ w => w.events = before ++ commandEvents args.dryRun true command)
      fun _ w => ∃ tail, tail <+: commandEvents args.dryRun false command ∧
        w.events = before ++ tail := by
  intro command
  have hboundary : ∀ events, Script.Keeps (fun w => w.events = events) (boundary env) :=
    fun events => boundary_steps fun _ _ hw => hw
  apply (hboundary before).bind_meets fun _ w hw => ⟨[], List.nil_prefix, by rw [hw]; simp⟩
  intro _
  apply Script.Meets.bind (Q := fun _ w => w.events = before ++ [.announce command])
  · exact Script.Meets.modify fun w hw => by rw [World.events_record, hw]
  intro _
  rw [Script.whenever]
  cases hdry : args.dryRun with
  | true => exact Script.Meets.pure fun _ hw => hw
  | false =>
    have hannounced : [Event.announce command] <+: commandEvents false false command :=
      ⟨[.run command false], rfl⟩
    apply (hboundary _).bind_meets fun _ w hw => ⟨_, hannounced, hw⟩
    intro _ w hw
    rw [runCommand]
    split
    · change World.events _ = _
      rw [World.events_record, hw, List.append_assoc]
      rfl
    · refine ⟨commandEvents false false command, List.prefix_rfl, ?_⟩
      rw [World.events_record, hw, List.append_assoc]
      rfl

theorem benchmarks_events (privileged : Option (List String)) (plan : List Benchmark)
    (before : List (Event HostPath)) :
    let commands := plan.map (Benchmark.command m args privileged)
    Script.Meets (fun w => w.events = before)
      (Script.forEach plan (Benchmark.run env m args privileged))
      (fun _ w => w.events = before ++ planEvents args.dryRun commands)
      fun _ w => ∃ bench, PlanRun args.dryRun commands bench ∧ w.events = before ++ bench := by
  intro commands
  have hstages := Script.Meets.forEach_stages (ε := Exn) (f := Benchmark.run env m args privileged)
    (I := fun passed w => w.events = before ++
      planEvents args.dryRun (passed.map (Benchmark.command m args privileged)))
    (E := fun passed b _ w => ∃ tail,
      tail <+: commandEvents args.dryRun false (b.command m args privileged) ∧
        w.events = before ++
          planEvents args.dryRun (passed.map (Benchmark.command m args privileged)) ++ tail)
    ?_ [] plan
  · apply hstages.mono
    · intro w hw
      rw [hw]
      exact (List.append_nil before).symm
    · exact fun _ w hw => hw
    · rintro e w ⟨passed, b, later, hplan, tail, htail, hw⟩
      have hcommands : commands = passed.map (Benchmark.command m args privileged) ++
          b.command m args privileged :: later.map (Benchmark.command m args privileged) := by
        rw [← List.map_cons, ← List.map_append, ← hplan]
      refine ⟨_, .stopped _ _ _ tail hcommands htail, ?_⟩
      rw [hw, List.append_assoc]
      rfl
  · intro passed b
    apply (runBenchmark_events b.name b.options _ _).mono
    · exact fun w hw => hw
    · intro _ w hw
      rw [hw, List.map_append, planEvents_append, List.map_singleton, planEvents_singleton,
        ← List.append_assoc]
      rfl
    · exact fun _ w hw => hw

/-- The benchmark commands of a run: none, or a plan as far as it has been carried out. -/
def Benched (m : Machine) (args : Args) (bench : List (Event HostPath)) : Prop :=
  bench = [] ∨ ∃ hugeSize privileged, HugeChoice m args hugeSize privileged ∧
    PlanRun args.dryRun ((args.plan m hugeSize).map (Benchmark.command m args privileged)) bench

/-- The benchmark commands of a run that has carried out its plan. -/
def Completed (m : Machine) (args : Args) (bench : List (Event HostPath)) : Prop :=
  ∃ hugeSize privileged, HugeChoice m args hugeSize privileged ∧ bench =
    planEvents args.dryRun ((args.plan m hugeSize).map (Benchmark.command m args privileged))

theorem Completed.benched (h : Completed m args bench) : Benched m args bench := by
  obtain ⟨hugeSize, privileged, hchoice, rfl⟩ := h
  exact .inr ⟨hugeSize, privileged, hchoice, .finished⟩

/-- The commands stand together: before them and behind them there are none. -/
def Staged (bench : List (Event HostPath) → Prop) (w : World HostPath) : Prop :=
  ∃ setup commands, (∀ e ∈ setup, e.isCommand = false) ∧ bench commands ∧
    Since (setup ++ commands) w

theorem Staged.mono {P Q : List (Event HostPath) → Prop} (h : Staged P w)
    (hPQ : ∀ bench, P bench → Q bench) : Staged Q w := by
  obtain ⟨setup, commands, hquiet, hbench, hsince⟩ := h
  exact ⟨setup, commands, hquiet, hPQ commands hbench, hsince⟩

theorem Since.staged (h : Since [] w) {bench : List (Event HostPath) → Prop} (hbench : bench []) :
    Staged bench w := by
  obtain ⟨setup, hsetup, hquiet⟩ := h
  refine ⟨setup, [], hquiet, hbench, [], ?_, nofun⟩
  rw [hsetup, List.append_nil, List.append_nil]
  rfl

theorem tryBlock_stages {privilege : Option (List String)} (haccess : Privileged args privilege)
    (autonuma : Option Int) : Script.Meets (Since [])
      (tryBlock env m args (!m.nodes.isEmpty && !args.noMatrices) autonuma privilege)
      (fun _ => Staged (Completed m args)) fun _ => Staged (Benched m args) := by
  have hI := Since.configures env []
  have hquiet : ∀ e w, Since [] w → Staged (Benched m args) w :=
    fun (_ : Exn) _ hw => hw.staged (.inl rfl)
  apply hI.boundary.bind_meets hquiet
  intro _
  apply Script.Meets.bind ((configureHost_chooses haccess autonuma []).mono_raises hquiet)
  rintro ⟨hugeSize, privileged⟩ w ⟨hw, hchoice⟩
  refine Script.Keeps.bind_meets hI.boundary hquiet (fun _ => ?_) w hw
  rintro w ⟨setup, hsetup, hnone⟩
  rw [runTests_plan hchoice.offered]
  apply (benchmarks_events privileged (args.plan m hugeSize) setup w hsetup).mono
  · intro _ w hw
    refine ⟨setup, _, hnone, ⟨hugeSize, privileged, hchoice, rfl⟩, ?_⟩
    exact hw ▸ .refl w
  · rintro _ w ⟨bench, hbench, hw⟩
    refine ⟨setup, bench, hnone, .inr ⟨hugeSize, privileged, hchoice, hbench⟩, ?_⟩
    exact hw ▸ .refl w

theorem finallyBlock_staged (bench : List (Event HostPath) → Prop) :
    Script.Keeps (Staged bench) (finallyBlock env args) := by
  apply Script.Keeps.of_state
  rintro w ⟨setup, commands, hquiet, hbench, hsince⟩
  exact ⟨setup, commands, hquiet, hbench, finallyBlock_since.state hsince⟩

/-- What is recorded is among these entries. -/
abbrev RecordedIn {π : Type} (t : Transaction) (entries : List (π × Int)) (h : Host π) : Prop :=
  ∀ e ∈ (h.transaction t).original, e ∈ entries

section
variable {π : Type} [DecidableEq π] {env : Env π}

theorem settle_removes (env : Env π) (t : Transaction) (e : π × Int) (entries : List (π × Int)) :
    Script.Ensures (OnHost (RecordedIn t (e :: entries))) (KernelSettings.settle env t e.1)
      fun _ => OnHost (RecordedIn t entries) := by
  apply (boundary_keeps (.onHost _)).bind_meets fun _ _ _ => trivial
  intro _
  apply Script.Ensures.bind (Q := fun _ => OnHost (RecordedIn t entries))
  · apply Script.Ensures.modify
    intro w hw x hx
    obtain ⟨hmem, hne⟩ := Host.mem_delete.1 hx
    exact (List.mem_cons.1 (hw x hmem)).resolve_left fun he => hne (he ▸ rfl)
  · exact fun _ => Script.Ensures.pure fun _ hw => hw

theorem restoreEntry_removes (e : π × Int) (entries : List (π × Int)) :
    Script.Ensures (OnHost (RecordedIn t (e :: entries))) (KernelSettings.restoreEntry env t e)
      fun failure w => failure = none → RecordedIn t entries w.host := by
  have hframe : Frame (OnHost (RecordedIn (π := π) t (e :: entries))) := .onHost _
  have hsettle := (settle_removes env t e entries).mono (fun _ hw => hw)
    fun (failure : Option String) _ hw (_ : failure = none) => hw
  apply Script.Meets.tryExcept (E := fun _ _ => True)
  · apply (readInt_keeps hframe e.1).bind_meets fun _ _ _ => trivial
    intro current
    split
    · exact hsettle
    apply Script.Keeps.bind_meets ?_ fun _ _ _ => trivial
    · intro _
      apply (readInt_keeps hframe e.1).bind_meets fun _ _ _ => trivial
      intro readback
      split
      · exact Script.Ensures.raise
      · exact hsettle
    · exact write_keeps hframe fun _ _ hw => hw
  · intro x k hk
    cases x with
    | error kind message =>
      cases hk
      apply Script.Ensures.bind (Q := fun _ _ => True) (Script.Meets.of_true _)
      exact fun _ => Script.Ensures.pure fun _ _ => nofun
    | keyError => cases hk
    | keyboardInterrupt => cases hk
  · exact fun _ _ _ _ => trivial

/-- A restoration that returns leaves nothing recorded, whatever has happened meanwhile. -/
theorem restore_clears (env : Env π) (t : Transaction) :
    Script.Ensures (fun _ => True) (KernelSettings.restore env t)
    fun _ => OnHost fun h => (h.transaction t).original = [] := by
  apply Script.Ensures.bind (Q := fun _ _ => True) (Script.Meets.of_true _)
  intro _
  apply Script.Meets.get_bind
  intro w _
  have hloop := Script.Ensures.collect (l := (w.host.transaction t).original.reverse)
    (f := KernelSettings.restoreEntry env t) (I := fun l => OnHost (RecordedIn t l))
    restoreEntry_removes
  refine (hloop.bind fun errors => ?_) w fun e he => List.mem_reverse.2 he
  have hframe : Frame fun w : World π => errors = [] → RecordedIn t [] w.host :=
    ⟨fun _ _ hw => hw, fun _ _ hw => hw⟩
  apply (boundary_keeps hframe).bind_meets fun _ _ _ => trivial
  intro _
  apply (record_keeps hframe _).bind_meets fun _ _ _ => trivial
  intro _
  split
  · exact Script.Ensures.raise
  · next herrors =>
    apply Script.Ensures.pure
    intro w hw
    exact List.eq_nil_iff_forall_not_mem.2 fun e he =>
      List.not_mem_nil (hw (not_not.1 herrors) e he)

theorem restore_other {s : Transaction} (hne : s ≠ t) :
    Script.Keeps (OnHost fun h => (h.transaction s).original = [])
      (KernelSettings.restore env t) := by
  let J (h : Host π) : Prop := (h.transaction s).original = []
  have hblind : ∀ p, BlindAt env t p (OnHost J) := fun p =>
    ⟨(Frame.onHost J).at p, fun v => write_keeps (.onHost J) fun _ _ hw => hw,
      fun w o hw => (congrArg KernelSettings.original (Host.setOriginal_ne w.host o hne)).trans hw⟩
  exact (restore_keepsAt (fun _ _ hw => hw) fun _ hw => hw).mono
    (fun _ hw => ⟨hw, fun e _ => hblind e.1⟩) (fun _ _ hw => hw) fun _ _ hw => hw

end

/-- Of the transactions at most those still to come have anything recorded. -/
abbrev ClearedBut (later : List Transaction) (h : Host HostPath) : Prop :=
  ∀ t, t ∉ later → (h.transaction t).original = []

theorem restoreTransaction_clears (t : Transaction) (later : List Transaction) :
    Script.Ensures (OnHost (ClearedBut (t :: later))) (restoreTransaction env t)
      fun failed w => failed = none → ClearedBut later w.host := by
  have hrestore : Script.Ensures (OnHost (ClearedBut (t :: later))) (KernelSettings.restore env t)
      fun _ => OnHost (ClearedBut later) := by
    intro w hw
    have hclears := restore_clears env t w trivial
    have hother : ∀ s, s ≠ t → s ∉ later →
        ((KernelSettings.restore env t w).2.host.transaction s).original = [] := fun s hne hs =>
      (restore_other hne).state (hw s fun hmem => (List.mem_cons.1 hmem).elim hne hs)
    cases hr : KernelSettings.restore env t w with
    | mk r w' =>
      rw [hr] at hclears hother
      cases r with
      | error e => trivial
      | ok u =>
        intro s hs
        by_cases hst : s = t
        · exact hst ▸ hclears
        · exact hother s hst hs
  apply Script.Meets.tryExcept (E := fun _ _ => True)
  · apply hrestore.bind
    exact fun _ => Script.Ensures.pure fun _ hw _ => hw
  · intro e k hk
    split at hk
    · cases hk
      exact Script.Ensures.pure fun _ _ => nofun
    · cases hk
  · exact fun _ _ _ _ => trivial

/-- A `finally` clause that returns has put every file back. -/
theorem finallyBlock_restores : Script.Ensures (OnHost (Recoverable HostPath.owner files))
    (finallyBlock env args) fun _ w => ∀ p, p.owner ≠ none → w.host.files p = files p := by
  let Settled (failed : List Unit) (h : Host HostPath) : Prop :=
    Recoverable HostPath.owner files h ∧ (failed = [] → ClearedBut [] h)
  have hblind : ∀ failed, ControlBlind (OnHost (Settled failed)) := fun _ _ _ _ _ hw => hw
  have henter : ControlBlind (OnHost (Recoverable HostPath.owner files)) := fun _ _ _ _ hw => hw
  apply (henter.enterCleanup args).bind_meets fun _ _ _ => trivial
  intro previous
  apply Script.Ensures.bind (Q := fun failed => OnHost (Settled failed))
  · apply Script.Meets.tryFinally_of (Q := fun failed => OnHost (Settled failed))
      (E := fun _ _ => True)
    · have hkeeps : Script.Keeps (OnHost (Recoverable HostPath.owner files))
          (Script.collect [Transaction.hugeSettings, .settings] (restoreTransaction env)) :=
        Script.Keeps.collect fun t _ => restoreTransaction_keeps restore_recoverable
      have hclears := Script.Ensures.collect (l := [Transaction.hugeSettings, .settings])
        (f := restoreTransaction env) (I := fun later => OnHost (ClearedBut later))
        restoreTransaction_clears
      apply (hkeeps.and hclears).mono
      · exact fun w hw => ⟨hw, fun t ht => absurd t.mem_all ht⟩
      · exact fun failed w hw => hw
      · exact fun _ _ _ => trivial
    · exact fun failed => ((hblind failed).unmask previous).mono_raises fun _ _ _ => trivial
    · exact fun _ => Script.Meets.of_true _
  intro failed
  apply (boundary_steps (hblind failed).step).bind_meets fun _ _ _ => trivial
  intro _
  split
  · exact Script.Ensures.raise
  · next hfailed =>
    apply Script.Ensures.pure
    rintro w ⟨hw, hcleared⟩ p hp
    obtain ⟨t, ht⟩ := Option.ne_none_iff_exists'.1 hp
    refine (hw.held p t ht).resolve_right fun hmem => ?_
    rw [hcleared (not_not.1 hfailed) t List.not_mem_nil] at hmem
    exact List.not_mem_nil hmem

theorem preflight_quiet (files : HostPath → Int) :
    Script.Meets (fun w => w = .start files) (preflight env m args)
      (fun found w => (found.1 = (!m.nodes.isEmpty && !args.noMatrices) ∧ Privileged args found.2.2) ∧
        Since [] w ∧ Recoverable HostPath.owner files w.host) fun _ => Since [] := by
  have hI := Since.configures env []
  have hsince := preflight_meets hI.step (hI.read .numaBalancing) m args
    (fun _ w hw => hw.record rfl) fun _ _ hw => hw
  apply ((hsince.and (preflight_fresh env m args)).and
    preflight_found).mono
  · rintro w rfl
    exact ⟨⟨.refl (.start files), ⟨none, rfl⟩, .start files⟩, trivial⟩
  · rintro found w ⟨⟨⟨hw, -⟩, ⟨privilege, hhost⟩, -⟩, hfound⟩
    exact ⟨hfound, hw, hhost ▸ .fresh _ files privilege⟩
  · exact fun _ w hw => hw.1.1

/-- The commands of a run stand together, and are the plan's in its order, as far as the run has
come. A run that returns has carried out its plan and put the host back. -/
theorem main_stages (env : Env HostPath) (m : Machine) (args : Args) (files : HostPath → Int) :
    Script.Meets (fun w => w = .start files) (main env m args)
      (fun _ w => Staged (Completed m args) w ∧ ∀ p, p.owner ≠ none → w.host.files p = files p)
      fun _ => Staged (Benched m args) := by
  apply ((preflight_quiet files).mono_raises fun _ w hw => hw.staged (.inl rfl)).bind
  rintro ⟨matrices, autonuma, privilege⟩ w ⟨⟨rfl, haccess⟩, hw⟩
  have hbody : Script.Keeps (fun w => Since [] w ∧ Recoverable HostPath.owner files w.host)
      (Script.modify fun w => { w with phase := .body, step := 0 } : Program HostPath Unit) :=
    fun _ hw => hw
  refine hbody.bind_meets (fun _ w hw => hw.1.staged (.inl rfl)) (fun _ => ?_) w hw
  apply Script.Meets.bind (Q := fun _ w => Staged (Completed m args) w ∧
    ∀ p, p.owner ≠ none → w.host.files p = files p)
  · have hblock := (tryBlock_stages haccess autonuma).and
      ((Steady.recoverable env files).tryBlock m args (!m.nodes.isEmpty && !args.noMatrices)
        autonuma privilege)
    apply hblock.tryFinally_of
    · intro _
      apply ((finallyBlock_staged (Completed m args)).and finallyBlock_restores).mono_raises
      exact fun _ w hw => hw.1.mono fun _ => Completed.benched
    · intro e
      apply (finallyBlock_staged (Benched m args)).mono
      · exact fun w hw => hw.1
      · exact fun _ w hw => hw
      · exact fun _ w hw => hw
  · exact fun _ => Script.Meets.pure fun w hw => hw

theorem main_completed (h : (main env m args (.start files)).1 = .ok status) :
    Staged (Completed m args) (main env m args (.start files)).2 ∧
      ∀ p, p.owner ≠ none → (main env m args (.start files)).2.host.files p = files p := by
  have hstages := main_stages env m args files _ rfl
  cases hr : main env m args (.start files) with
  | mk result w =>
    rw [hr] at hstages h
    cases h
    exact hstages

theorem main_benched (env : Env HostPath) (m : Machine) (args : Args) (files : HostPath → Int) :
    Staged (Benched m args) (main env m args (.start files)).2 := by
  have hstages := (main_stages env m args files).mono_returns fun _ _ hw =>
    hw.1.mono fun _ => Completed.benched
  exact (hstages _ rfl).state

/-- Whatever happens to a run, its benchmark commands stand together between the setup and the
restoration, and are those of the plan, in its order, up to the first that fails. A run that
returns has carried out the whole plan, and every file it may have changed is as before. -/
theorem suite_carries_out_plan (env : Env HostPath) (m : Machine) (args : Args)
    (files : HostPath → Int) :
    let r := main env m args (.start files)
    (∃ setup bench restoration, r.2.events = setup ++ bench ++ restoration ∧
      (∀ e ∈ setup ++ restoration, e.isCommand = false) ∧ Benched m args bench ∧
        ∀ status, r.1 = .ok status → Completed m args bench) ∧
    ∀ status, r.1 = .ok status → ∀ p, p.owner ≠ none → r.2.host.files p = files p := by
  intro r
  refine ⟨?_, fun status h => (main_completed h).2⟩
  have hunfold : ∀ {P : List (Event HostPath) → Prop} {w}, Staged P w →
      ∃ setup bench restoration, w.events = setup ++ bench ++ restoration ∧
        (∀ e ∈ setup ++ restoration, e.isCommand = false) ∧ P bench := by
    rintro P w ⟨setup, bench, hsetup, hbench, restoration, hevents, hrestoration⟩
    refine ⟨setup, bench, restoration, hevents, fun e he => ?_, hbench⟩
    exact (List.mem_append.1 he).elim (hsetup e) (hrestoration e)
  cases hr : r.1 with
  | ok status =>
    obtain ⟨setup, bench, restoration, hevents, hquiet, hbench⟩ := hunfold (main_completed hr).1
    exact ⟨setup, bench, restoration, hevents, hquiet, hbench.benched, fun _ _ => hbench⟩
  | error e =>
    obtain ⟨setup, bench, restoration, hevents, hquiet, hbench⟩ :=
      hunfold (main_benched env m args files)
    exact ⟨setup, bench, restoration, hevents, hquiet, hbench, nofun⟩

end MmMem

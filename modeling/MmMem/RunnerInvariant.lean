import MmMem.Runner
import MmMem.KernelSettingsRecovery

namespace MmMem
open Prog
set_option autoImplicit true

/-- The transaction a kernel file is changed through; the one-shot actions have none. -/
def HostPath.owner : HostPath → Option Transaction
  | .numaBalancing => some .settings
  | .nrHugepages _ _ => some .hugeSettings
  | .dropCaches => none
  | .compactMemory => none

/-- A property kept by everything the runner does to the host before its `finally` clause. -/
structure Steady (env : Env HostPath) (I : World HostPath → Prop) : Prop extends Frame I where
  set : ∀ p t v, p.owner = some t → Script.Keeps I (KernelSettings.set env t p v)
  write : ∀ p t v, p.owner = none → Script.Keeps I (KernelSettings.write env t p v)
  restore : ∀ t, Script.Keeps I (KernelSettings.restore env t)

variable {env : Env HostPath} {I : World HostPath → Prop} {initial : HostPath → Int}

theorem Steady.recoverable (env : Env HostPath) (initial : HostPath → Int) :
    Steady env (OnHost (Recoverable HostPath.owner initial)) where
  toFrame := .onHost _
  set _ _ _ ho := set_recoverable ho
  write p _ _ ho := write_keeps (.onHost _) fun w v hw => hw.setFile (fun s hs => by
    rw [ho] at hs
    cases hs) v
  restore _ := restore_recoverable

theorem HostBlind.steady (hI : HostBlind I) : Steady env I where
  toFrame := hI.toFrame
  set _ _ _ _ := hI.set
  write _ _ _ _ := hI.write
  restore _ := hI.restore

theorem hugePagePaths_lookup (nodes : List NumaNode)
    (h : (hugePagePaths nodes).lookup (nid, size) = some path) : path = .nrHugepages nid size := by
  obtain ⟨l₁, l₂, hl, -⟩ := List.lookup_eq_some_iff.1 h
  have hmem : ((nid, size), path) ∈ hugePagePaths nodes := hl ▸ List.mem_append_right l₁ (.head _)
  simp only [hugePagePaths, List.mem_flatMap, List.mem_map, Prod.mk.injEq] at hmem
  obtain ⟨node, -, _, -, ⟨rfl, rfl⟩, rfl⟩ := hmem
  rfl

/-- A property kept by what the runner may do to the host before its `finally` clause: it reads,
sets values through these transactions and restores. -/
structure Configures (env : Env HostPath) (may : Transaction → Prop)
    (I : World HostPath → Prop) : Prop where
  step : ∀ w n, I w → I { w with step := n }
  read : ∀ p, Script.Keeps I (readInt env p)
  set : ∀ p t v, may t → p.owner = some t → Script.Keeps I (KernelSettings.set env t p v)
  write : ∀ p v, may .hugeSettings → p.owner = none →
    Script.Keeps I (KernelSettings.write env .hugeSettings p v)
  restore : ∀ t, Script.Keeps I (KernelSettings.restore env t)

theorem Steady.configures (hI : Steady env I) : Configures env (fun _ => True) I where
  step := hI.step
  read p := readInt_keeps hI.toFrame p
  set p t v _ := hI.set p t v
  write p v _ := hI.write p .hugeSettings v
  restore := hI.restore

/-- What no access to any path changes is kept by whatever configures the host. -/
theorem Configures.of_blindAt (hI : ∀ t p, BlindAt env t p I)
    (hrestored : ∀ t w, I w → I (w.record (.restored t))) : Configures env (fun _ => True) I where
  step := (hI .settings .numaBalancing).step
  read p := (hI .settings p).readInt
  set p t _ _ _ := (hI t p).set
  write p v _ _ := (hI .hugeSettings p).write v
  restore t := (restore_keepsAt (hI .settings .numaBalancing).step (hrestored t)).mono
    (fun _ hw => ⟨hw, fun e _ => hI t e.1⟩) (fun _ _ hw => hw) fun _ _ hw => hw

theorem Configures.and (hI : Configures env may I) (hJ : Configures env may J) :
    Configures env may fun w => I w ∧ J w where
  step w n hw := ⟨hI.step w n hw.1, hJ.step w n hw.2⟩
  read p := (hI.read p).and (hJ.read p)
  set p t v hmay ho := (hI.set p t v hmay ho).and (hJ.set p t v hmay ho)
  write p v hmay ho := (hI.write p v hmay ho).and (hJ.write p v hmay ho)
  restore t := (hI.restore t).and (hJ.restore t)

theorem Configures.boundary (hI : Configures env may I) : Script.Keeps I (boundary env) :=
  boundary_steps hI.step

theorem Configures.setupNode (hI : Configures env may I) (hmay : may .hugeSettings)
    (nodes : List NumaNode) (size : Nat) (entry : Nat × Nat) :
    Script.Keeps I (setupNode env .hugeSettings nodes size entry) := by
  apply hI.boundary.bind
  intro _
  split
  · exact Script.Keeps.pure I ()
  cases hp : (hugePagePaths nodes).lookup (entry.1, size) with
  | none => exact Script.Keeps.raise I _
  | some path =>
    obtain rfl := hugePagePaths_lookup nodes hp
    apply (hI.read _).bind
    intro current
    exact hI.set _ _ _ hmay rfl

theorem Configures.setupHugePages (hI : Configures env may I) (hmay : may .hugeSettings)
    (nodes : List NumaNode) (drop compact : Bool) :
    Script.Keeps I (setupHugePages env .hugeSettings nodes drop compact) := by
  apply hI.boundary.bind
  intro _
  dsimp only
  split
  · exact Script.Keeps.raise I _
  apply (Script.Keeps.whenever fun _ => hI.write _ _ hmay rfl).bind
  intro _
  apply (Script.Keeps.whenever fun _ => hI.write _ _ hmay rfl).bind
  intro _
  apply (Script.Keeps.forEach fun entry _ => hI.setupNode hmay nodes _ entry).bind
  intro _
  exact Script.Keeps.pure I _

theorem Configures.disableBalancing (hI : Configures env may I) (autonuma : Option Int)
    (privilege : Option (List String)) (hmay : privilege ≠ none → may .settings) :
    Script.Keeps I (disableBalancing env autonuma privilege) := by
  apply Script.Keeps.whenever
  intro hneeded
  have hprivilege : privilege ≠ none := by
    rintro rfl
    cases hneeded
  apply Script.Keeps.tryExcept (hI.set _ _ _ (hmay hprivilege) rfl)
  intro e k hk
  split at hk
  · cases hk
    exact hI.restore _
  · cases hk

theorem Configures.provisionHugePages (hI : Configures env may I) (hmay : may .hugeSettings)
    (m : Machine) (args : Args) : Script.Keeps I (provisionHugePages env m args) := by
  apply Script.Keeps.tryExcept (hI.setupHugePages hmay _ _ _)
  intro e k hk
  split at hk
  · cases hk
    exact (hI.restore _).bind fun _ => Script.Keeps.pure I _
  · cases hk

/-- The prefix huge-page commands get: none, or the access found, unless pages that exist are to
be used. -/
def HugePrefix (args : Args) (privilege privileged : Option (List String)) : Prop :=
  privileged = none ∨ privileged = privilege ∧ (args.dryRun = true ∨ args.hugepages ≠ .existing)

theorem Configures.chosenHugePages (hI : Configures env may I) (m : Machine) (args : Args)
    (privilege : Option (List String))
    (hmay : args.hugepages = .auto → privilege ≠ none → may .hugeSettings) :
    Script.Meets I (chosenHugePages env m args privilege)
      (fun x w => I w ∧ (x.1 ≠ 0 → HugePrefix args privilege x.2)) fun _ => I := by
  rw [MmMem.chosenHugePages]
  split
  · next hauto =>
    simp only [Bool.and_eq_true, beq_iff_eq, Option.isSome_iff_ne_none] at hauto
    obtain ⟨⟨-, hmode⟩, hprivilege⟩ := hauto
    apply (hI.provisionHugePages (hmay hmode hprivilege) m args).bind_meets fun _ _ hw => hw
    intro size
    refine Script.Meets.pure fun w hw => ⟨hw, fun _ => .inr ⟨rfl, .inr ?_⟩⟩
    rw [hmode]
    exact HugePageMode.noConfusion
  split
  · dsimp only
    split
    · exact Script.Meets.raise fun _ hw => hw
    · exact Script.Meets.pure fun w hw => ⟨hw, fun _ => .inl rfl⟩
  · exact Script.Meets.pure fun w hw => ⟨hw, fun h => absurd rfl h⟩

theorem Configures.configureHost (hI : Configures env may I) (m : Machine) (args : Args)
    (autonuma : Option Int) (privilege : Option (List String))
    (hsettings : privilege ≠ none → may .settings)
    (hhuge : args.hugepages = .auto → privilege ≠ none → may .hugeSettings) :
    Script.Meets I (configureHost env m args autonuma privilege)
      (fun x w => I w ∧ (x.1 ≠ 0 → HugePrefix args privilege x.2)) fun _ => I := by
  rw [MmMem.configureHost]
  split
  · next hdry =>
    refine Script.Meets.pure fun w hw => ⟨hw, fun _ => .inr ⟨?_, .inl hdry⟩⟩
    rw [plannedHugePages]
    split <;> rfl
  apply (hI.disableBalancing autonuma privilege hsettings).bind_meets fun _ _ hw => hw
  intro _
  apply hI.boundary.bind_meets fun _ _ hw => hw
  intro _
  exact hI.chosenHugePages m args privilege hhuge

/-- The commands with this prefix may be announced and run. -/
def Runs (m : Machine) (args : Args) (I : World HostPath → Prop)
    (privileged : Option (List String)) : Prop :=
  ∀ name options w, I w → ∀ e, e = .announce (benchmarkCommand m args name options privileged) ∨
    (∃ ok, e = .run (benchmarkCommand m args name options privileged) ok) → I (w.record e)

theorem runBenchmark_keeps (hstep : ∀ w n, I w → I { w with step := n }) {m : Machine}
    {args : Args} {privileged : Option (List String)} (hruns : Runs m args I privileged)
    (name : String) (options : List String) :
    Script.Keeps I (runBenchmark env m args name options privileged) := by
  apply (boundary_steps hstep).bind
  intro _
  refine Script.Keeps.bind (fun w hw => hruns name options w hw _ (.inl rfl)) fun _ => ?_
  apply Script.Keeps.whenever
  intro _
  apply (boundary_steps hstep).bind
  intro _ w hw
  rw [runCommand]
  split
  · exact hruns name options w hw _ (.inr ⟨true, rfl⟩)
  · exact hruns name options w hw _ (.inr ⟨false, rfl⟩)

theorem hugePageArguments_keeps (size : Nat) : Script.Keeps I (hugePageArguments size) := by
  rw [hugePageArguments]
  split
  · exact Script.Keeps.pure I _
  · exact Script.Keeps.raise I _

theorem runTests_commands (hstep : ∀ w n, I w → I { w with step := n }) (m : Machine)
    (args : Args) (selected : List Test) (matrices : Bool) (hugeSize : Nat)
    (privileged : Option (List String)) (hordinary : Runs m args I none)
    (hhuge : hugeSize ≠ 0 → Runs m args I privileged) :
    Script.Keeps I (runTests env m args selected matrices hugeSize privileged) := by
  have hbench : ∀ name options, Script.Keeps I (runBenchmark env m args name options none) :=
    runBenchmark_keeps hstep hordinary
  have hhuge : ∀ name options, Script.Keeps I (Script.whenever (hugeSize != 0) do
      let huge ← hugePageArguments hugeSize
      runBenchmark env m args name (options ++ huge) privileged) := fun name options => by
    apply Script.Keeps.whenever
    intro hne
    apply (hugePageArguments_keeps _).bind
    intro huge
    exact runBenchmark_keeps hstep (hhuge (bne_iff_ne.1 hne)) _ _
  apply (Script.Keeps.whenever fun _ => (hbench _ _).bind fun _ => hhuge _ _).bind
  intro _
  refine Script.Keeps.bind (Script.Keeps.whenever fun _ => ?_) fun _ => ?_
  · apply (hbench _ _).bind
    intro _
    apply (Script.Keeps.whenever fun _ => Script.Keeps.forEach fun mix _ => hbench _ _).bind
    intro _
    exact (hbench _ _).bind fun _ => hbench _ _
  · exact Script.Keeps.whenever fun _ => (hbench _ _).bind fun _ => hhuge _ []

theorem runTests_keeps (hI : Frame I) (m : Machine) (args : Args) (selected : List Test)
    (matrices : Bool) (hugeSize : Nat) (privileged : Option (List String)) :
    Script.Keeps I (runTests env m args selected matrices hugeSize privileged) :=
  runTests_commands hI.step m args selected matrices hugeSize privileged
    (fun _ _ w hw e _ => hI.record w e hw) fun _ _ _ w hw e _ => hI.record w e hw

theorem Configures.tryBlock (hI : Configures env may I) (m : Machine) (args : Args)
    (matrices : Bool) (autonuma : Option Int) (privilege : Option (List String))
    (hsettings : privilege ≠ none → may .settings)
    (hhuge : args.hugepages = .auto → privilege ≠ none → may .hugeSettings)
    (hruns : ∀ privileged, HugePrefix args privilege privileged → Runs m args I privileged) :
    Script.Keeps I (tryBlock env m args matrices autonuma privilege) := by
  apply hI.boundary.bind
  intro _
  apply (hI.configureHost m args autonuma privilege hsettings hhuge).bind
  rintro ⟨hugeSize, privileged⟩ w ⟨hw, hgiven⟩
  refine (hI.boundary.bind fun _ => ?_) w hw
  exact runTests_commands hI.step m args _ matrices hugeSize privileged
    (hruns none (.inl rfl)) fun hne => hruns privileged (hgiven hne)

/-- Nothing the `try` block does escapes a steady property. -/
theorem Steady.tryBlock (hI : Steady env I) (m : Machine) (args : Args) (matrices : Bool)
    (autonuma : Option Int) (privilege : Option (List String)) :
    Script.Keeps I (tryBlock env m args matrices autonuma privilege) :=
  hI.configures.tryBlock m args matrices autonuma privilege (fun _ => trivial)
    (fun _ _ => trivial) fun _ _ _ _ w hw e _ => hI.record w e hw

theorem checkAutonuma_keeps (hread : Script.Keeps I (readInt env .numaBalancing)) :
    Script.Keeps I (checkAutonuma env) := by
  apply Script.Keeps.tryExcept (hread.bind fun _ => Script.Keeps.pure I _)
  intro e k hk
  split at hk
  · cases hk
    exact Script.Keeps.pure I _
  · cases hk
    exact Script.Keeps.pure I _
  · cases hk

/-- What the caller forbids is not even looked for. -/
theorem detectPrivilege_meets (m : Machine) (args : Args)
    (hprobe : (args.noSystemConfig || args.dryRun) = false → ∀ w, I w → I (w.record .sudoProbe)) :
    Script.Meets I (detectPrivilege m args)
      (fun privilege w => I w ∧ ((args.noSystemConfig || args.dryRun) = true → privilege = none))
      fun _ => I := by
  rw [detectPrivilege]
  split
  · exact Script.Meets.pure fun w hw => ⟨hw, fun _ => rfl⟩
  next hallowed =>
  have hpost : ∀ privilege : Option (List String), Script.Meets I (pure privilege)
      (fun privilege w => I w ∧ ((args.noSystemConfig || args.dryRun) = true → privilege = none))
      fun (_ : Exn) => I :=
    fun privilege => Script.Meets.pure fun w hw => ⟨hw, fun h => absurd h hallowed⟩
  rw [privilegePrefix]
  split
  · exact hpost _
  split
  · refine Script.Keeps.bind_meets (fun w hw => ?_) (fun _ _ hw => hw) fun _ => ?_
    · exact hprobe (Bool.eq_false_iff.2 hallowed) w hw
    · split
      · exact hpost _
      · exact hpost _
  · exact hpost _

/-- The statements before the `try` only read, and make transactions with nothing recorded. -/
theorem preflight_meets (hstep : ∀ w n, I w → I { w with step := n })
    (hread : Script.Keeps I (readInt env .numaBalancing)) (m : Machine) (args : Args)
    (hprobe : (args.noSystemConfig || args.dryRun) = false → ∀ w, I w → I (w.record .sudoProbe))
    (hfresh : ∀ w privilege, I w → I (w.withHost (.fresh w.host.files privilege))) :
    Script.Meets I (preflight env m args)
      (fun found w => I w ∧ ((args.noSystemConfig || args.dryRun) = true → found.2.2 = none))
      fun _ => I := by
  apply (boundary_steps hstep).bind_meets fun _ _ hw => hw
  intro _
  cases checkArguments m args with
  | error e => exact Script.Meets.raise fun _ hw => hw
  | ok u =>
    apply (checkAutonuma_keeps hread).bind_meets fun _ _ hw => hw
    intro autonuma
    apply (boundary_steps hstep).bind_meets fun _ _ hw => hw
    intro _
    apply (detectPrivilege_meets m args hprobe).bind
    rintro privilege w ⟨hw, hnone⟩
    refine (boundary_steps hstep).bind_meets (fun _ _ hw => hw) (fun _ => ?_) w hw
    apply Script.Meets.bind (Q := fun _ => I)
    · exact Script.Meets.modify fun w hw => hfresh w privilege hw
    · exact fun _ => Script.Meets.pure fun w hw => ⟨hw, hnone⟩

theorem preflight_keeps (hI : Frame I)
    (hfresh : ∀ w privilege, I w → I (w.withHost (.fresh w.host.files privilege)))
    (m : Machine) (args : Args) : Script.Keeps I (preflight env m args) :=
  (preflight_meets hI.step (readInt_keeps hI _) m args (fun _ w hw => hI.record w _ hw)
    hfresh).mono (fun _ hw => hw) (fun _ _ hw => hw.1) fun _ _ hw => hw

end MmMem

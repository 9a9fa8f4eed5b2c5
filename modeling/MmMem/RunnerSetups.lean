import MmMem.HugePageSetup
import MmMem.RunnerOptOuts
import MmMem.RunnerPlan

namespace MmMem
open Prog
set_option autoImplicit true

/-- The command an event has executed. -/
def Event.ran? : Event HostPath → Option (List String)
  | .run command _ => some command
  | _ => none

/-- The benchmark commands executed, in order. -/
def ranCommands (log : List (Phase × Event HostPath)) : List (List String) :=
  log.reverse.filterMap (·.2.ran?)

/-- Up to the `finally` clause reads and writes may fail as those of kernel files do, and nothing
else goes wrong: the files hold integers, no signal arrives and no command fails. -/
structure Undisturbed (env : Env HostPath) : Prop where
  signals : ∀ phase, phase ≠ .cleanup → ∀ k, env.signals phase k = []
  preflight : ∀ k kind message, env.readFails .preflight k = some (kind, message) →
    kind = .osError
  reads : ∀ k kind message, env.readFails .body k = some (kind, message) → kind ≠ .valueError
  writes : ∀ k kind message left, env.writes .body k = .fails kind message left →
    kind ≠ .valueError
  runs : ∀ k, env.runFails .body k = none

/-- The `try` block up to its setup through this transaction, if it makes one. -/
def setupThrough (env : Env HostPath) (m : Machine) (args : Args) (autonuma : Option Int)
    (privilege : Option (List String)) : Transaction → Program HostPath Unit
  | .settings => do
    boundary env
    Script.whenever (privilege.isSome && autonuma.isSome && autonuma != some 0)
      (setupAutonuma env 0 .settings)
  | .hugeSettings => do
    boundary env
    disableBalancing env autonuma privilege
    boundary env
    Script.whenever (args.latencyRequested && args.hugepages == .auto && privilege.isSome) do
      let _ ← setupHugePages env .hugeSettings m.nodes args.dropCaches args.compact
      return

variable {env : Env HostPath} {m : Machine} {args : Args} {I : World HostPath → Prop}
  {t : Transaction} {p : HostPath} {v : Int} {w w' : World HostPath}
  {files : HostPath → Int} {ran : List (List String)}

theorem ranCommands_record (w : World HostPath) (e : Event HostPath) :
    ranCommands (w.record e).log = ranCommands w.log ++ e.ran?.toList := by
  rw [ranCommands, World.record, List.reverse_cons, List.filterMap_append]
  cases h : e.ran? with
  | none => simp [ranCommands, h]
  | some command => simp [ranCommands, h]

theorem Event.ran?_of_path {e : Event HostPath} (h : e.path? = some p) : e.ran? = none := by
  cases e with
  | run command ok => cases h
  | _ => rfl

/-- These are the commands executed so far. -/
def Ran (ran : List (List String)) (w : World HostPath) : Prop := ranCommands w.log = ran

/-- Inside the `try` block, after these commands. -/
def After (ran : List (List String)) (w : World HostPath) : Prop := w.phase = .body ∧ Ran ran w

theorem Ran.record (h : Ran ran w) {e : Event HostPath} (he : e.ran? = none) :
    Ran ran (w.record e) := by
  rw [Ran, ranCommands_record, he, h]
  exact List.append_nil ran

theorem Ran.blindAt : BlindAt env t p (Ran ran) := by
  have hframe : FrameAt p (Ran ran) :=
    ⟨fun _ _ hw => hw, fun _ _ hp hw => hw.record (Event.ran?_of_path hp)⟩
  exact ⟨hframe, fun v => hframe.write fun _ _ hw => hw, fun _ _ hw => hw⟩

theorem After.record (h : After ran w) {e : Event HostPath} (he : e.ran? = none) :
    After ran (w.record e) := ⟨h.1, h.2.record he⟩

theorem After.blindAt : BlindAt env t p (After ran) := by
  have hframe : FrameAt p (After ran) :=
    ⟨fun _ _ hw => hw, fun _ _ hp hw => hw.record (Event.ran?_of_path hp)⟩
  exact ⟨hframe, fun v => hframe.write fun _ _ hw => hw, fun _ _ hw => hw⟩

/-- In the `try` block before the first command. -/
def Underway (files : HostPath → Int) (w : World HostPath) : Prop :=
  Recoverable HostPath.owner files w.host ∧ After [] w

theorem Underway.configures (env : Env HostPath) (files : HostPath → Int) :
    Configures env (fun _ => True) (Underway files) :=
  (Steady.recoverable env files).configures.and
    (.of_blindAt (fun _ _ => After.blindAt) fun _ _ hw => hw.record rfl)

theorem Undisturbed.uninterrupted (henv : Undisturbed env) (hw : w.phase ≠ .cleanup) :
    Uninterrupted env w := by
  intro k
  rw [interruptedAt, henv.signals w.phase hw k]
  rfl

theorem Undisturbed.unstopped (henv : Undisturbed env) (hw : w.phase = .body) :
    Uninterrupted env w := henv.uninterrupted (hw ▸ Phase.noConfusion)

/-- What raises in the `try` block raises one of the exceptions its handlers expect. -/
abbrev RaisesSetup (m : Program HostPath α) : Prop :=
  Script.Meets (fun w => w.phase = .body) m (fun _ w => w.phase = .body)
    fun e _ => e.ofSetup = true

theorem Undisturbed.boundary (henv : Undisturbed env) :
    Script.Completes (fun w => w.phase = .body) (boundary env) := by
  intro w hw
  rw [boundary_ok (henv.unstopped hw)]
  exact hw

theorem Undisturbed.readInt (henv : Undisturbed env) : RaisesSetup (readInt env p) := by
  apply henv.boundary.bind
  intro _ w hw
  cases hf : env.readFails w.phase w.step with
  | none =>
    simp only [hf]
    exact hw
  | some failure =>
    simp only [hf]
    rw [show w.phase = .body from hw] at hf
    exact bne_iff_ne.2 (henv.reads _ _ _ hf)

theorem Undisturbed.write (henv : Undisturbed env) :
    RaisesSetup (KernelSettings.write env t p v) := by
  apply henv.boundary.bind
  intro _
  apply Script.Meets.get_bind
  intro w hw
  cases (w.host.transaction t).privilege with
  | none => rfl
  | some privilege =>
    simp only [writeFile]
    cases ho : env.writes w.phase w.step with
    | takes => exact hw
    | clamps left => exact hw
    | fails kind message left =>
      rw [show w.phase = .body from hw] at ho
      have hkind := henv.writes _ _ _ _ ho
      dsimp only
      split
      · rfl
      · exact bne_iff_ne.2 hkind

theorem Undisturbed.set (henv : Undisturbed env) :
    RaisesSetup (KernelSettings.set env t p v) := by
  apply henv.readInt.bind
  intro previous
  apply henv.boundary.bind
  intro _
  split
  · exact Script.Meets.pure fun _ hw => hw
  apply henv.boundary.bind
  intro _
  apply Script.Meets.bind (Q := fun _ w => w.phase = .body)
  · exact Script.Meets.modify fun _ hw => hw
  intro _
  apply henv.write.bind
  intro _
  apply henv.readInt.bind
  intro current
  split
  · exact Script.Meets.raise fun _ _ => rfl
  · exact Script.Meets.pure fun _ hw => hw

theorem Undisturbed.setupNode (henv : Undisturbed env) {nodes : List NumaNode}
    {entry : Nat × Nat}
    (h : ¬ entry.2 < 1024 ^ 2 → (hugePagePaths nodes).lookup (entry.1, size) ≠ none) :
    RaisesSetup (setupNode env t nodes size entry) := by
  apply henv.boundary.bind
  intro _
  split
  · exact Script.Meets.pure fun _ hw => hw
  next hkib =>
  cases hp : (hugePagePaths nodes).lookup (entry.1, size) with
  | none => exact absurd hp (h hkib)
  | some path => exact henv.readInt.bind fun _ => henv.set

theorem Undisturbed.setupHugePages (henv : Undisturbed env) (nodes : List NumaNode)
    (drop compact : Bool) : RaisesSetup (setupHugePages env t nodes drop compact) := by
  apply henv.boundary.bind
  intro _
  dsimp only
  split
  · exact Script.Meets.raise fun _ _ => rfl
  next hsize =>
  apply (Script.Meets.whenever fun _ => henv.write).bind
  intro _
  apply (Script.Meets.whenever fun _ => henv.write).bind
  intro _
  apply Script.Meets.bind
  · apply Script.Meets.forEach_mem
    intro entry hentry
    exact henv.setupNode (eligible_lookup hsize hentry)
  · exact fun _ => Script.Meets.pure fun _ hw => hw

theorem Underway.rollback (henv : Undisturbed env) (hw : Underway files w)
    (hok : allOk ((KernelSettings.restore env t w).2.since w) = true) :
    ∃ w', KernelSettings.restore env t w = (.ok (), w') ∧ Underway files w' := by
  obtain ⟨new, w', heq, -⟩ := restore_clean (henv.unstopped hw.2.1) (hw.1.nodup t)
    (List.all_eq_true.1 hok)
  have hkept := ((Underway.configures env files).restore t).state hw
  rw [heq] at hkept
  exact ⟨_, heq, hkept⟩

theorem disableBalancing_returns (henv : Undisturbed env) (hw : Underway files w)
    (autonuma : Option Int) (privilege : Option (List String))
    (hroll : ∀ e w', Script.whenever (privilege.isSome && autonuma.isSome && autonuma != some 0)
      (setupAutonuma env 0 .settings) w = (.error e, w') →
        allOk ((KernelSettings.restore env .settings w').2.since w') = true) :
    ∃ w', disableBalancing env autonuma privilege w = (.ok (), w') ∧ Underway files w' := by
  rw [disableBalancing]
  cases hneeded : privilege.isSome && autonuma.isSome && autonuma != some 0 with
  | false => exact ⟨w, rfl, hw⟩
  | true =>
    rw [hneeded] at hroll
    have hraises := henv.set (t := .settings) (p := .numaBalancing) (v := 0) w hw.2.1
    have hkept :=
      ((Underway.configures env files).set .numaBalancing .settings 0 trivial rfl).state hw
    cases hset : setupAutonuma env 0 .settings w with
    | mk o w₁ =>
      rw [← setupAutonuma, hset] at hraises hkept
      cases o with
      | ok u => exact ⟨w₁, Script.tryExcept_ok hset, hkept⟩
      | error e =>
        obtain ⟨w₂, hrestore, hw₂⟩ := hkept.rollback henv (hroll e w₁ hset)
        exact ⟨w₂, (Script.tryExcept_error hset (if_pos hraises)).trans hrestore, hw₂⟩

theorem pickHugePageSize_hugeSize (nodes : List NumaNode) :
    HugeSize (pickHugePageSize nodes (getMemInfo nodes)) := by
  rw [pickHugePageSize_eq]
  rcases foldr_max_mem (candidateSizes nodes) with hzero | hmem
  · exact .inl hzero
  · obtain ⟨⟨size, option⟩, hentry, heq⟩ := List.mem_map.1 (List.mem_filter.1 hmem).1
    rw [← heq]
    exact .inr (List.lookup_isSome_iff.2 ⟨_, hentry, BEq.rfl⟩)

theorem provisionHugePages_returns (henv : Undisturbed env) (hw : Underway files w)
    (m : Machine) (args : Args)
    (hroll : ∀ e w', setupHugePages env .hugeSettings m.nodes args.dropCaches args.compact w =
      (.error e, w') → allOk ((KernelSettings.restore env .hugeSettings w').2.since w') = true) :
    ∃ size w', provisionHugePages env m args w = (.ok size, w') ∧ HugeSize size ∧
      Underway files w' := by
  have hraises := henv.setupHugePages (t := .hugeSettings) m.nodes args.dropCaches args.compact w
    hw.2.1
  have hkept := ((Underway.configures env files).setupHugePages trivial m.nodes args.dropCaches
    args.compact).state hw
  have hfiles := setupHugePages_files env .hugeSettings m.nodes args.dropCaches args.compact
    w.host.files w rfl
  rw [provisionHugePages]
  cases hset : setupHugePages env .hugeSettings m.nodes args.dropCaches args.compact w with
  | mk o w₁ =>
    rw [hset] at hraises hkept hfiles
    cases o with
    | ok size =>
      refine ⟨size, w₁, Script.tryExcept_ok hset, ?_, hkept⟩
      rw [hfiles.1]
      exact pickHugePageSize_hugeSize m.nodes
    | error e =>
      obtain ⟨w₂, hrestore, hw₂⟩ := hkept.rollback henv (hroll e w₁ hset)
      have hscripts : e.ofScripts = true := by
        cases e with
        | error kind message => rfl
        | keyError => cases hraises
        | keyboardInterrupt => cases hraises
      refine ⟨0, w₂, ?_, .inl rfl, hw₂⟩
      rw [Script.tryExcept_error hset (if_pos hscripts), Script.bind_ok _ hrestore]
      rfl

theorem chosenHugePages_returns (henv : Undisturbed env) (hw : Underway files w)
    (hmode : args.hugepages ≠ .existing) (m : Machine) (privilege : Option (List String))
    (hroll : (args.latencyRequested && args.hugepages == .auto && privilege.isSome) = true →
      ∀ e w', setupHugePages env .hugeSettings m.nodes args.dropCaches args.compact w =
        (.error e, w') → allOk ((KernelSettings.restore env .hugeSettings w').2.since w') = true) :
    ∃ size privileged w', chosenHugePages env m args privilege w = (.ok (size, privileged), w') ∧
      HugeSize size ∧ Underway files w' := by
  rw [chosenHugePages]
  split
  · next hneeded =>
    obtain ⟨size, w', heq, hsize, hw'⟩ := provisionHugePages_returns henv hw m args (hroll hneeded)
    exact ⟨size, privilege, w', by rw [Script.bind_ok _ heq]; rfl, hsize, hw'⟩
  · rw [if_neg]
    · exact ⟨0, privilege, w, rfl, .inl rfl, hw⟩
    · rw [Bool.and_eq_true, beq_iff_eq]
      exact fun h => hmode h.2

/-- Whatever the setups come to, the host ends up configured for some size of huge pages. -/
theorem configureHost_returns (henv : Undisturbed env) (hw : Underway files w)
    (hdry : args.dryRun = false) (hmode : args.hugepages ≠ .existing) (autonuma : Option Int)
    (privilege : Option (List String))
    (hroll : ∀ t e w', setupThrough env m args autonuma privilege t w = (.error e, w') →
      allOk ((KernelSettings.restore env t w').2.since w') = true) :
    ∃ size privileged w', (do boundary env; configureHost env m args autonuma privilege) w =
      (.ok (size, privileged), w') ∧ HugeSize size ∧ Underway files w' := by
  have hconf := Underway.configures env files
  have hb₁ := boundary_ok (henv.unstopped hw.2.1)
  have hw₁ := hconf.step w (w.step + 1) hw
  obtain ⟨w₂, hdisable, hw₂⟩ := disableBalancing_returns henv hw₁ autonuma privilege
    fun e w' h => hroll .settings e w' (by rw [setupThrough, Script.bind_ok _ hb₁]; exact h)
  have hb₂ := boundary_ok (henv.unstopped hw₂.2.1)
  have hw₃ := hconf.step w₂ (w₂.step + 1) hw₂
  obtain ⟨size, privileged, w', hchosen, hsize, hw'⟩ := chosenHugePages_returns henv hw₃ hmode m
    privilege fun hneeded e w' h => hroll .hugeSettings e w' (by
      rw [setupThrough, Script.bind_ok _ hb₁, Script.bind_ok _ hdisable, Script.bind_ok _ hb₂,
        hneeded]
      exact Script.bind_error _ h)
  refine ⟨size, privileged, w', ?_, hsize, hw'⟩
  rw [Script.bind_ok _ hb₁, configureHost, hdry, if_neg Bool.false_ne_true,
    Script.bind_ok _ hdisable, Script.bind_ok _ hb₂, hchosen]

end MmMem

import MmMem.HugePageBudget
import MmMem.HugePageScript
import MmMem.RunnerOptOuts

namespace MmMem
open Prog
set_option autoImplicit true

/-- A call of one of the scripts. -/
inductive Invocation where
  | configHugePage (env : Env HostPath) (m : Machine) (args : HugePageArgs)
  | runCpuMicro (env : Env HostPath) (m : Machine) (args : Args)

namespace Invocation

def machine : Invocation → Machine
  | configHugePage _ m _ => m
  | runCpuMicro _ m _ => m

/-- How the call ends, and the files it leaves. -/
def run (files : HostPath → Int) : Invocation → Except Exn Unit × (HostPath → Int)
  | configHugePage env m args =>
    let r := MmMem.configHugePage env m args (.scriptStart files)
    (r.1, r.2.host.files)
  | runCpuMicro env m args =>
    let r := main env m args (.start files)
    (r.1.map fun _ => (), r.2.host.files)

/-- The call takes no page away for good: it is no `--clear` that succeeds, and a suite that
reserves pages of its own comes to its end. -/
def Spares (files : HostPath → Int) : Invocation → Prop
  | configHugePage env m args => Dependable env ∧
      (args.action = some .clear → ((configHugePage env m args).run files).1 ≠ .ok ())
  | runCpuMicro env m args => args.hugepages = .auto →
      ((runCpuMicro env m args).run files).1 = .ok ()

end Invocation

/-- The files after a session: each call finds those the one before it has left. -/
def session (files : HostPath → Int) : List Invocation → HostPath → Int
  | [] => files
  | i :: later => session (i.run files).2 later

/-- The calls of a session concern these nodes, and spare their pages. -/
def Sparing (nodes : List NumaNode) : (HostPath → Int) → List Invocation → Prop
  | _, [] => True
  | files, i :: later => (i.machine.nodes = nodes ∧ i.Spares files) ∧
      Sparing nodes (i.run files).2 later

/-- `main` of `run_cpu_micro.py` as far as its call number `k`, with whether it measures matrices
and the size of its huge pages. -/
def mainUpTo (env : Env HostPath) (m : Machine) (args : Args) (k : Nat) :
    Program HostPath (Bool × Nat) := do
  let (matrices, autonuma, privilege) ← preflight env m args
  Script.modify fun w => { w with phase := .body, step := 0 }
  let (hugeSize, _) ← tryBlockUpTo env m args matrices autonuma privilege k
  return (matrices, hugeSize)

/-- The largest size on offer is reserved. -/
def Ready (nodes : List NumaNode) (files : HostPath → Int) : Prop :=
  ∃ size, (Offered nodes size ∧ ∀ s, Offered nodes s → s ≤ size) ∧ Reserved nodes size files

/-- No pool has been written, nor any other file that is not recorded. -/
def PoolsKept (files : HostPath → Int) (w : World HostPath) : Prop :=
  Recoverable HostPath.owner files w.host ∧ PoolsSpared w

variable {env : Env HostPath} {m : Machine} {args : Args} {nodes : List NumaNode}
  {files files' : HostPath → Int} {w : World HostPath}

theorem PoolsKept.pools (h : PoolsKept files w) : PoolsAt files w := by
  intro nid size
  rcases h.1.held (.nrHugepages nid size) .hugeSettings rfl with hheld | hmem
  · exact hheld
  · rw [h.2.1] at hmem
    exact absurd hmem List.not_mem_nil

theorem preflight_spares (files : HostPath → Int) :
    Script.Meets (· = .start files) (preflight env m args)
      (fun found w => PoolsKept files w ∧
        ((args.noSystemConfig || args.dryRun) = true → found.2.2 = none))
      fun _ => PoolsKept files := by
  have hspared : ∀ w : World HostPath, Pristine files w.host ∧ Logged SparesMemory w →
      PoolsKept files w := fun w hw => ⟨hw.1.recoverable, hw.1.1 _, hw.2⟩
  have hprobe : SparesMemory .sudoProbe := fun h => (Bool.false_ne_true h).elim
  apply (preflight_pristine files (fun _ h => (Bool.false_ne_true h).elim) fun _ => hprobe).mono
  · rintro w rfl
    exact ⟨⟨fun _ => rfl, rfl⟩, fun _ h => absurd h List.not_mem_nil⟩
  · exact fun _ w hw => ⟨hspared w hw.1, hw.2⟩
  · exact fun _ w hw => hspared w hw

/-- A suite that reserves no pages of its own leaves the pools as they are, however it ends. -/
theorem main_sparesPools (hmode : args.hugepages ≠ .auto) (files : HostPath → Int) :
    Script.Meets (· = .start files) (main env m args) (fun _ => PoolsKept files)
      fun _ => PoolsKept files := by
  apply main_meets (fun _ _ _ _ hw => hw) (.sparesMemory files) (preflight_spares files)
  · exact fun _ => rfl
  · exact fun _ h => absurd h hmode
  · intro privilege privileged _ _ name options w hw e he
    refine ⟨hw.1, hw.2.1, hw.2.2.record fun hwrite => ?_⟩
    rw [(isWrite_of_command he).1] at hwrite
    cases hwrite

theorem Reserved.congr (h : Reserved nodes size files)
    (hsame : ∀ nid s, files' (.nrHugepages nid s) = files (.nrHugepages nid s)) :
    Reserved nodes size files' :=
  ⟨h.1, fun node hnode kib hkib => hsame node.nid size ▸ h.2 node hnode kib hkib⟩

theorem Ready.congr (h : Ready nodes files)
    (hsame : ∀ nid s, files' (.nrHugepages nid s) = files (.nrHugepages nid s)) :
    Ready nodes files' := by
  obtain ⟨size, hlargest, hreserved⟩ := h
  exact ⟨size, hlargest, hreserved.congr hsame⟩

theorem configHugePage_pools (henv : Dependable env) (hids : DistinctIds m.nodes)
    (args : HugePageArgs) (files : HostPath → Int) :
    let r := (Invocation.configHugePage env m args).run files
    (r.1 = .ok () ∧ Achieved m.nodes args files r.2) ∨
      (r.1 ≠ .ok () ∧ ∀ nid s, r.2 (.nrHugepages nid s) = files (.nrHugepages nid s)) := by
  intro r
  have hpost := configHugePage_meets henv hids args files (.scriptStart files) rfl
  have hr : r = ((configHugePage env m args (.scriptStart files)).1,
      (configHugePage env m args (.scriptStart files)).2.host.files) := rfl
  rw [hr]
  cases h : configHugePage env m args (.scriptStart files) with
  | mk o w =>
    rw [h] at hpost
    cases o with
    | ok u => exact .inl ⟨rfl, hpost⟩
    | error e => exact .inr ⟨by rintro ⟨⟩, hpost⟩

theorem Achieved.ready {args : HugePageArgs} (haction : args.action = some .setup)
    (h : Achieved nodes args files files') : Ready nodes files' := by
  simp only [Achieved, haction] at h
  obtain ⟨size, hlargest, hprovisioned⟩ := h
  exact ⟨size, hlargest, hprovisioned.reserved hlargest.1⟩

theorem Ready.run (hids : DistinctIds nodes) (h : Ready nodes files) {i : Invocation}
    (hnodes : i.machine.nodes = nodes) (hi : i.Spares files) : Ready nodes (i.run files).2 := by
  subst hnodes
  cases i with
  | configHugePage env m args =>
    obtain ⟨henv, hclear⟩ := hi
    rcases configHugePage_pools henv hids args files with ⟨hok, hachieved⟩ | ⟨-, hsame⟩
    · cases haction : args.action with
      | none =>
        simp only [Achieved, haction] at hachieved
        exact h.congr fun nid s => congrFun hachieved _
      | some action =>
        cases action with
        | check =>
          simp only [Achieved, haction] at hachieved
          exact h.congr fun nid s => congrFun hachieved _
        | setup => exact hachieved.ready haction
        | clear => exact absurd hok (hclear haction)
    · exact h.congr hsame
  | runCpuMicro env m args =>
    by_cases hmode : args.hugepages = .auto
    · have hok := hi hmode
      have hreturned : ∃ status, (main env m args (.start files)).1 = .ok status := by
        change (main env m args (.start files)).1.map (fun _ => ()) = .ok () at hok
        cases hmain : (main env m args (.start files)).1 with
        | ok status => exact ⟨status, rfl⟩
        | error e =>
          rw [hmain] at hok
          cases hok
      obtain ⟨status, hstatus⟩ := hreturned
      exact h.congr fun nid s => (main_completed hstatus).2 _ (Option.some_ne_none _)
    · exact h.congr ((main_sparesPools hmode files) _ rfl).state.pools

theorem Ready.session {later : List Invocation} (hids : DistinctIds nodes)
    (h : Ready nodes files) (hlater : Sparing nodes files later) :
    Ready nodes (session files later) := by
  induction later generalizing files with
  | nil => exact h
  | cons i later ih => exact ih (h.run hids hlater.1.1 hlater.1.2) hlater.2

theorem Ready.picked (hids : DistinctIds nodes) (h : Ready nodes files) :
    Offered nodes (pickHugePageSize nodes (getMemInfo nodes)) ∧
      Reserved nodes (pickHugePageSize nodes (getMemInfo nodes)) files := by
  obtain ⟨size, ⟨hoffered, hlargest⟩, hreserved⟩ := h
  rcases pickHugePageSize_spec hids with ⟨-, hnone⟩ | ⟨-, hpicked, hge⟩
  · exact absurd ⟨size, hoffered⟩ hnone
  · rw [Nat.le_antisymm (hlargest _ hpicked) (hge size hoffered)]
    exact ⟨hoffered, hreserved⟩

/-- The `try` block of a suite that reserves nothing finds the pools as they were. -/
theorem tryBlockUpTo_finds {privilege : Option (List String)} (haccess : Privileged args privilege)
    (hmode : args.hugepages ≠ .auto) (matrices : Bool) (autonuma : Option Int) (k : Nat) :
    Script.Ensures (PoolsKept files) (tryBlockUpTo env m args matrices autonuma privilege k)
      fun x w => PoolsAt files w ∧
        (x.1 = 0 ∨ x.1 = pickHugePageSize m.nodes (getMemInfo m.nodes)) := by
  have hconf : Configures env (· = .settings) (PoolsKept files) := .sparesMemory files
  apply hconf.boundary.ensures.bind
  intro _
  have hchosen : Script.Ensures (PoolsKept files) (configureHost env m args autonuma privilege)
      fun x w => PoolsAt files w ∧
        (x.1 = 0 ∨ x.1 = pickHugePageSize m.nodes (getMemInfo m.nodes)) := by
    intro w hw
    have hpools := hconf.configureHost m args autonuma privilege (fun _ => rfl)
      (fun h => absurd h hmode) w hw
    have hchooses : Script.Meets (Since w.events)
        (configureHost env m args autonuma privilege) _ _ :=
      configureHost_chooses haccess autonuma w.events
    have hchoice := hchooses w (.refl w)
    cases hr : configureHost env m args autonuma privilege w with
    | mk o w' =>
      rw [hr] at hpools hchoice
      cases o with
      | ok x => exact ⟨PoolsKept.pools hpools.1, hchoice.2.picked⟩
      | error e => trivial
  apply hchosen.bind
  rintro ⟨hugeSize, privileged⟩ w ⟨hpools, hpicked⟩
  refine Script.Ensures.bind (P := OnHost fun h => h.files = w.host.files)
    (Q := fun _ => OnHost fun h => h.files = w.host.files) ?_ (fun _ => ?_) w rfl
  · exact (boundary_keeps (.onHost _)).ensures
  apply (benchmarks_files privileged _ w.host.files).ensures.bind
  intro _
  apply Script.Ensures.pure
  intro w' hfiles
  exact ⟨fun nid size => (congrFun hfiles _).trans (hpools nid size), hpicked⟩

end MmMem

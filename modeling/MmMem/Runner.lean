import MmMem.HugePages

namespace MmMem
open Prog
set_option autoImplicit true

inductive Test where
  | idleLatency
  | loadedLatency
  | bandwidth
  deriving Repr, DecidableEq

inductive HugePageMode where
  | auto
  | off
  | existing
  deriving Repr, DecidableEq

/-- The integers `positive_int` lets through. -/
abbrev PositiveInt : Type := {n : Nat // 0 < n}

/-- What `init_parser` accepts. -/
structure Args where
  targetDuration : PositiveInt
  test : List Test
  numThreads : Option PositiveInt
  regionSize : Option PositiveInt
  noSystemConfig : Bool
  hugepages : HugePageMode
  noMatrices : Bool
  dropCaches : Bool
  compact : Bool
  dryRun : Bool
  deriving DecidableEq

/-- What the runner finds of the host besides its settings files. -/
structure Machine where
  isLinux : Bool
  isRoot : Bool
  hasSudo : Bool
  /-- `sudo -n true` exits with status 0. -/
  sudoAnswers : Bool
  allowedCpus : Nat
  executable : String → Bool
  binPath : String → String
  nodes : List NumaNode

/-- The entry point: SIGINT and SIGTERM both raise `KeyboardInterrupt`, nothing is recorded. -/
def World.start (files : HostPath → Int) : World HostPath :=
  ⟨.fresh files none, fun _ => false, .preflight, 0, []⟩

def privilegePrefix (m : Machine) : Program HostPath (Option (List String)) :=
  if m.isRoot then return some []
  else if m.hasSudo then do
    record .sudoProbe
    if m.sudoAnswers then return some ["sudo", "-n", "--"]
    else return none
  else return none

def benchmarkCommand (m : Machine) (args : Args) (name : String) (options : List String)
    (privileged : Option (List String)) : List String :=
  privileged.getD [] ++ [m.binPath name] ++ ["-t", toString args.targetDuration.1] ++
    (match args.numThreads with
      | some n => if name ≠ "cpu_idle_latency" then ["-n", toString n.1] else []
      | none => []) ++
    (match args.regionSize with
      | some n => ["-b", toString n.1]
      | none => []) ++
    options

/-- `subprocess.run(command, check=True)` -/
def runCommand (env : Env HostPath) (command : List String) : Program HostPath Unit := fun w =>
  match env.runFails w.phase w.step with
  | none => (.ok (), w.record (.run command true))
  | some (kind, message) => (.error (.error kind message), w.record (.run command false))

def runBenchmark (env : Env HostPath) (m : Machine) (args : Args) (name : String)
    (options : List String) (privileged : Option (List String)) : Program HostPath Unit := do
  boundary env
  let command := benchmarkCommand m args name options privileged
  record (.announce command)
  Script.whenever (!args.dryRun) do
    boundary env
    runCommand env command

/-- `['-p', '2', '-H', str(HUGE_PAGE_OPTIONS[huge_size])]` -/
def hugePageArguments (hugeSize : Nat) : Program HostPath (List String) :=
  match hugePageOptions.lookup hugeSize with
  | some option => return ["-p", "2", "-H", toString option]
  | none => Script.raise .keyError

def runTests (env : Env HostPath) (m : Machine) (args : Args) (selected : List Test)
    (matrices : Bool) (hugeSize : Nat) (privileged : Option (List String)) :
    Program HostPath Unit := do
  Script.whenever (selected.contains .idleLatency) do
    let options := if matrices then ["--latency_matrix"] else []
    runBenchmark env m args "cpu_idle_latency" options none
    Script.whenever (hugeSize != 0) do
      let huge ← hugePageArguments hugeSize
      runBenchmark env m args "cpu_idle_latency" (options ++ huge) privileged
  Script.whenever (selected.contains .bandwidth) do
    runBenchmark env m args "cpu_peak_bandwidth" [] none
    Script.whenever matrices do
      Script.forEach ["0", "1"] fun mix =>
        runBenchmark env m args "cpu_peak_bandwidth" ["--bandwidth_matrix", "-m", mix] none
    runBenchmark env m args "cpu_memcpy" [] none
    runBenchmark env m args "cpu_memcpy" ["-f", "16384"] none
  Script.whenever (selected.contains .loadedLatency) do
    runBenchmark env m args "cpu_loaded_latency" [] none
    Script.whenever (hugeSize != 0) do
      let huge ← hugePageArguments hugeSize
      runBenchmark env m args "cpu_loaded_latency" huge privileged

def Args.selected (args : Args) : List Test :=
  if args.test = [] then [.idleLatency, .bandwidth, .loadedLatency] else args.test

def Args.latencyRequested (args : Args) : Bool :=
  args.selected.any fun t => t == .idleLatency || t == .loadedLatency

/-- `sorted(required)` -/
def Args.required (args : Args) : List String :=
  (if args.selected.contains .idleLatency then ["cpu_idle_latency"] else []) ++
  (if args.selected.contains .loadedLatency then ["cpu_loaded_latency"] else []) ++
  (if args.selected.contains .bandwidth then ["cpu_memcpy", "cpu_peak_bandwidth"] else [])

/-- The checks at the start of `main`, in order. -/
def checkArguments (m : Machine) (args : Args) : Except Exn Unit :=
  let threads := match args.numThreads with
    | some n => n.1
    | none => m.allowedCpus
  if !m.isLinux then
    .error (.error .runtimeError
      "The suite runner currently requires Linux; run supported binaries individually")
  else if (args.dropCaches || args.compact) &&
      (args.noSystemConfig || args.hugepages != .auto || !args.latencyRequested) then
    .error (.error .valueError
      "--drop-caches/--compact require automatic huge-page setup for latency tests")
  else if args.selected.contains .loadedLatency && threads < 2 then
    .error (.error .valueError
      "Loaded latency needs at least two worker threads; select another --test")
  else
    match args.required.find? fun name => !args.dryRun && !m.executable name with
    | some name => .error (.error .runtimeError
        s!"Missing executable bin/{name}; build the repository first")
    | none => .ok ()

/-- `check_autonuma`: the value, or `none` where it cannot be read. -/
def checkAutonuma (env : Env HostPath) : Program HostPath (Option Int) :=
  Script.tryExcept (do return some (← readInt env .numaBalancing))
    fun
      | .error .osError _ => some (return none)
      | .error .valueError _ => some (return none)
      | _ => none

def setupAutonuma (env : Env HostPath) (value : Int) (t : Transaction) :
    Program HostPath Unit :=
  KernelSettings.set env t .numaBalancing value

/-- Dry runs do not even probe sudo. -/
def detectPrivilege (m : Machine) (args : Args) : Program HostPath (Option (List String)) :=
  if args.noSystemConfig || args.dryRun then return none else privilegePrefix m

/-- What stands before the `try` statement: the matrices, the NUMA balancing value and the
access found, with both transactions made. -/
def preflight (env : Env HostPath) (m : Machine) (args : Args) :
    Program HostPath (Bool × Option Int × Option (List String)) := do
  boundary env
  match checkArguments m args with
  | .error e => Script.raise e
  | .ok () =>
    let autonuma ← checkAutonuma env
    let matrices := !m.nodes.isEmpty && !args.noMatrices
    boundary env
    let privilege ← detectPrivilege m args
    boundary env
    Script.modify fun w => w.withHost (.fresh w.host.files privilege)
    return (matrices, autonuma, privilege)

/-- `except (OSError, subprocess.SubprocessError, RuntimeError)` -/
def Exn.ofSetup : Exn → Bool
  | .error kind _ => kind != .valueError
  | _ => false

/-- `except (OSError, subprocess.SubprocessError, ValueError, RuntimeError)` -/
def Exn.ofScripts : Exn → Bool
  | .error _ _ => true
  | _ => false

/-- NUMA balancing is turned off, or what was changed is put back. -/
def disableBalancing (env : Env HostPath) (autonuma : Option Int)
    (privilege : Option (List String)) : Program HostPath Unit :=
  Script.whenever (privilege.isSome && autonuma.isSome && autonuma != some 0)
    (Script.tryExcept (setupAutonuma env 0 .settings) fun e =>
      if e.ofSetup then some (KernelSettings.restore env .settings) else none)

/-- `setup_huge_pages`, or what was changed is put back. -/
def provisionHugePages (env : Env HostPath) (m : Machine) (args : Args) :
    Program HostPath Nat :=
  Script.tryExcept (setupHugePages env .hugeSettings m.nodes args.dropCaches args.compact) fun e =>
    if e.ofScripts then some do
      KernelSettings.restore env .hugeSettings
      return 0
    else none

/-- The huge-page size and the command prefix of the huge-page benchmarks, with `--dry-run`. -/
def plannedHugePages (m : Machine) (args : Args) (privilege : Option (List String)) :
    Nat × Option (List String) :=
  if args.latencyRequested && args.hugepages != .off then
    (pickHugePageSize m.nodes (getMemInfo m.nodes), privilege)
  else (0, privilege)

/-- The same without `--dry-run`. -/
def chosenHugePages (env : Env HostPath) (m : Machine) (args : Args)
    (privilege : Option (List String)) : Program HostPath (Nat × Option (List String)) :=
  if args.latencyRequested && args.hugepages == .auto && privilege.isSome then do
    let size ← provisionHugePages env m args
    return (size, privilege)
  else if args.latencyRequested && args.hugepages == .existing then
    let size := pickHugePageSize m.nodes (getMemInfo m.nodes)
    if size = 0 then
      Script.raise (.error .runtimeError
        "No supported huge-page size found for --hugepages existing")
    else return (size, none)
  else return (0, privilege)

def configureHost (env : Env HostPath) (m : Machine) (args : Args) (autonuma : Option Int)
    (privilege : Option (List String)) : Program HostPath (Nat × Option (List String)) :=
  if args.dryRun then return plannedHugePages m args privilege
  else do
    disableBalancing env autonuma privilege
    boundary env
    chosenHugePages env m args privilege

/-- The `try` block of `main`. -/
def tryBlock (env : Env HostPath) (m : Machine) (args : Args) (matrices : Bool)
    (autonuma : Option Int) (privilege : Option (List String)) : Program HostPath Unit := do
  boundary env
  let (hugeSize, privileged) ← configureHost env m args autonuma privilege
  boundary env
  runTests env m args args.selected matrices hugeSize privileged

/-- `previous[sig] = signal.signal(sig, signal.SIG_IGN)`: the handler there was. -/
def mask (env : Env HostPath) (sig : Signal) : Program HostPath (Option (Signal × Bool)) := do
  boundary env
  let w ← Script.get
  Script.modify fun w => { w with ignored := Function.update w.ignored sig true }
  return some (sig, w.ignored sig)

/-- One trip of the restoring loop: whether it has failed. -/
def restoreTransaction (env : Env HostPath) (t : Transaction) :
    Program HostPath (Option Unit) :=
  Script.tryExcept
    (do
      KernelSettings.restore env t
      return none)
    fun e => if e.ofSetup then some (return some ()) else none

/-- The handlers recorded in `previous` are put back. -/
def unmask (env : Env HostPath) (previous : List (Signal × Bool)) : Program HostPath Unit :=
  Script.forEach previous fun entry => do
    boundary env
    Script.modify fun w => { w with ignored := Function.update w.ignored entry.1 entry.2 }

/-- The signals the `finally` clause masks. -/
def Args.masked (args : Args) : List Signal := if args.dryRun then [] else [.sigint, .sigterm]

/-- The start of the `finally` clause, up to its own `try`. -/
def enterCleanup (env : Env HostPath) (args : Args) :
    Program HostPath (List (Signal × Bool)) := do
  Script.modify fun w => { w with phase := .cleanup, step := 0 }
  boundary env
  boundary env
  Script.collect args.masked (mask env)

/-- The `finally` clause of `main`. -/
def finallyBlock (env : Env HostPath) (args : Args) : Program HostPath Unit := do
  let previous ← enterCleanup env args
  let failed ← Script.tryFinally
    (Script.collect [Transaction.hugeSettings, Transaction.settings] (restoreTransaction env))
    (unmask env previous)
  boundary env
  if failed ≠ [] then
    Script.raise (.error .runtimeError
      "Host settings were not fully restored; inspect the warnings above")
  else return

def main (env : Env HostPath) (m : Machine) (args : Args) : Program HostPath Nat := do
  let (matrices, autonuma, privilege) ← preflight env m args
  Script.modify fun w => { w with phase := .body, step := 0 }
  Script.tryFinally (tryBlock env m args matrices autonuma privilege) (finallyBlock env args)
  return 0

end MmMem

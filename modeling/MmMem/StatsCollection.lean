import MmMem.ProcessSelection
import MmMem.Library.ChildProcesses

namespace MmMem
open Prog
set_option autoImplicit true

def measurePmu (interval : Nat) (pid : Text) : List Text :=
  let scope := if pid ≠ [] then ["-p".toList, pid] else ["-a".toList]
  let events := if pid ≠ [] then "duration_time,cpu-clock:u,cycles:u,instructions:u".toList
    else "duration_time,cpu-clock,cycles,instructions".toList
  ["perf".toList, "stat".toList, "--no-big-num".toList] ++ scope ++
    ["-e".toList, events, "--".toList, "sleep".toList, str interval]

def measureCpuUtil (interval : Nat) : List Text := ["mpstat".toList, "1".toList, str interval]

/-- What happens outside `main`: to its processes, and in `get_pids`. -/
structure StatsHost extends ProcHost Exn where
  /-- what `get_pids` returns or raises -/
  getPids : StatsArgs → Except Exn (List Text)

/-- The processes started so far; the variable is the list `processes`. -/
abbrev Collection : Type := Procs Exn (List Nat)

def timeoutExpired : Exn := .error .subprocessError "timed out after 2 seconds"

/-- `processes.append(proc)` -/
def appendProcess (proc : Nat) : Script Exn Collection Unit :=
  Script.modify fun s => { s with locals := s.locals ++ [proc] }

section Main

variable (host : StatsHost) (args : StatsArgs)

def startCounters (pids : List Text) : Script Exn Collection (List (Text × Nat)) :=
  Script.fold pids [] fun reports pid => do
    let proc ← popen host.toProcHost (measurePmu args.interval pid) true
    appendProcess proc
    pure (reports ++ [(pid, proc)])

def readReports (reports : List (Text × Nat)) (failed : Bool) : Script Exn Collection Bool :=
  Script.fold reports failed fun failed (pid, proc) => do
    let output ← communicate host.toProcHost proc
    print host.toProcHost
      ((if pid ≠ [] then "\nFor pid=".toList ++ pid else "\nSystem-wide counters".toList) ++ ['\n'])
    print host.toProcHost output
    let code ← returncode proc
    pure (code ≠ some 0 || failed)

/-- The `try` block of `main`. -/
def collectReports : Script Exn Collection Int := do
  let pids ← Script.ofExcept (host.getPids args)
  let reports ← startCounters host args pids
  let mpstat ← popen host.toProcHost (measureCpuUtil args.interval) false
  appendProcess mpstat
  let code ← wait host.toProcHost mpstat
  let failed ← readReports host reports (code ≠ some 0)
  pure (if failed then 1 else 0)

/-- The `except` clauses of `main`. -/
def handleError : Exn → Option (Script Exn Collection Int)
  | .error .osError message | .error .valueError message => some do
    printError host.toProcHost ("Error: ".toList ++ message.toList ++ ['\n'])
    pure 1
  | .keyboardInterrupt => some (pure 130)
  | _ => none

/-- The first loop of the `finally` clause. -/
def terminateProcesses (processes : List Nat) : Script Exn Collection Unit :=
  Script.forEach processes fun proc => do
    let code ← poll host.toProcHost proc
    Script.whenever (code = none) (terminate host.toProcHost proc)

/-- `wait` with a timeout, and `kill` after it. -/
def waitOrKill (proc : Nat) : Script Exn Collection (Option Int) :=
  Script.tryExcept (waitTimeout host.toProcHost timeoutExpired proc) fun
    | .error .subprocessError _ => some do
      kill host.toProcHost proc
      wait host.toProcHost proc
    | _ => none

/-- The second loop of the `finally` clause. -/
def reapProcesses (processes : List Nat) : Script Exn Collection Unit :=
  Script.forEach processes fun proc => do
    let _ ← waitOrKill host proc
    let pipe ← piped proc
    Script.whenever pipe (closeStdout host.toProcHost proc)

/-- The `finally` clause of `main`. -/
def reapAll : Script Exn Collection Unit := do
  let s ← Script.get
  terminateProcesses host s.locals
  reapProcesses host s.locals

/-- `main` of `measure_stats.py`, with the exit code it returns. -/
def measureStats : Except Exn Int × Collection :=
  Script.tryFinally (Script.tryExcept (collectReports host args) (handleError host)) (reapAll host)
    ⟨[], [], []⟩

end Main

/-- The commands of the collectors, in the order in which `main` starts them. -/
def collectors (args : StatsArgs) (pids : List Text) : List (List Text) :=
  pids.map (measurePmu args.interval) ++ [measureCpuUtil args.interval]

end MmMem

import MmMem.Library.FallibleScript
import Mathlib.Algebra.Group.Nat.Defs
import Mathlib.Data.List.Basic
import Mathlib.Logic.Function.Basic

namespace MmMem
open Prog
set_option autoImplicit true

/-- The exception classes the scripts name in their `except` clauses. -/
inductive ErrorKind where
  | osError
  | subprocessError
  | valueError
  | runtimeError
  deriving Repr, DecidableEq

inductive Exn where
  | error (kind : ErrorKind) (message : String)
  | keyError
  | keyboardInterrupt
  deriving Repr, DecidableEq

inductive Signal where
  | sigint
  | sigterm
  deriving Repr, DecidableEq

/-- Where the runner is: before its `try` statement, inside it, or in its `finally` clause. -/
inductive Phase where
  | preflight
  | body
  | cleanup
  deriving Repr, DecidableEq

/-- The two `KernelSettings` objects of the runner. -/
inductive Transaction where
  | settings
  | hugeSettings
  deriving Repr, DecidableEq

/-- What happens at a write: the file takes the value, takes another one, or the write raises. -/
inductive WriteOutcome where
  | takes
  | clamps (left : Int)
  | fails (kind : ErrorKind) (message : String) (left : Option Int)
  deriving Repr, DecidableEq

/-- The outcomes of everything outside the scripts, by phase and statement number. -/
structure Env (π : Type) where
  signals : Phase → Nat → List Signal
  readFails : Phase → Nat → Option (ErrorKind × String)
  writes : Phase → Nat → WriteOutcome
  runFails : Phase → Nat → Option (ErrorKind × String)
  pathText : π → String

structure KernelSettings (π : Type) where
  /-- `none` without access, `some []` for root, otherwise the `sudo` command. -/
  privilege : Option (List String)
  /-- The dictionary of original values, in insertion order. -/
  original : List (π × Int)

/-- The settings files with the transactions on them. -/
structure Host (π : Type) where
  files : π → Int
  transaction : Transaction → KernelSettings π

/-- Two transactions just made with this access: nothing is recorded. -/
def Host.fresh (files : π → Int) (privilege : Option (List String)) : Host π :=
  ⟨files, fun _ => ⟨privilege, []⟩⟩

inductive Event (π : Type) where
  | read (path : π) (ok : Bool)
  | refused (path : π) (value : Int)
  | write (path : π) (value : Int) (elevated : Bool) (ok : Bool)
  | restored (t : Transaction)
  | sudoProbe
  | announce (command : List String)
  | run (command : List String) (ok : Bool)
  deriving DecidableEq

structure World (π : Type) where
  host : Host π
  ignored : Signal → Bool
  phase : Phase
  step : Nat
  log : List (Phase × Event π)

abbrev Program (π α : Type) : Type := Script Exn (World π) α

variable {π : Type} [DecidableEq π]

def World.record (w : World π) (e : Event π) : World π := { w with log := (w.phase, e) :: w.log }

def World.withHost (w : World π) (h : Host π) : World π := { w with host := h }

def Host.setFile (h : Host π) (path : π) (value : Int) : Host π :=
  { h with files := Function.update h.files path value }

def Host.setOriginal (h : Host π) (t : Transaction) (original : List (π × Int)) : Host π :=
  { h with transaction := Function.update h.transaction t { h.transaction t with original } }

/-- `self.original.setdefault(path, previous)` -/
def Host.setDefault (h : Host π) (t : Transaction) (path : π) (previous : Int) : Host π :=
  if (h.transaction t).original.any (·.1 == path) then h
  else h.setOriginal t ((h.transaction t).original ++ [(path, previous)])

/-- `del self.original[path]` -/
def Host.delete (h : Host π) (t : Transaction) (path : π) : Host π :=
  h.setOriginal t ((h.transaction t).original.filter (·.1 != path))

def record (e : Event π) : Program π Unit := Script.modify (·.record e)

/-- The end of a statement: pending signals run their handlers, which raise unless ignored. -/
def boundary (env : Env π) : Program π Unit := fun w =>
  let w' := { w with step := w.step + 1 }
  if (env.signals w.phase w.step).any (fun s => !w.ignored s) then (.error .keyboardInterrupt, w')
  else (.ok (), w')

/-- `int(Path(path).read_text().strip())` -/
def readInt (env : Env π) (path : π) : Program π Int := do
  boundary env
  fun w =>
    match env.readFails w.phase w.step with
    | none => (.ok (w.host.files path), w.record (.read path true))
    | some (kind, message) => (.error (.error kind message), w.record (.read path false))

/-- The file write itself, through `tee` under sudo or directly. -/
def writeFile (env : Env π) (elevated : Bool) (path : π) (value : Int) : Program π Unit := fun w =>
  match env.writes w.phase w.step with
  | .takes =>
    (.ok (), (w.withHost (w.host.setFile path value)).record (.write path value elevated true))
  | .clamps left =>
    (.ok (), (w.withHost (w.host.setFile path left)).record
      (.write path value elevated (left == value)))
  | .fails kind message left =>
    -- a failed `tee` is reported as a RuntimeError
    let error := if elevated ∧ kind = .subprocessError then
      .error .runtimeError s!"Cannot write {env.pathText path}: {message}"
      else .error kind message
    (.error error, (w.withHost (match left with
      | some v => w.host.setFile path v
      | none => w.host)).record (.write path value elevated false))

def KernelSettings.write (env : Env π) (t : Transaction) (path : π) (value : Int) :
    Program π Unit := do
  boundary env
  let w ← Script.get
  match (w.host.transaction t).privilege with
  | none =>
    record (.refused path value)
    Script.raise (.error .osError "Root or noninteractive sudo is required")
  | some privilege => writeFile env (!privilege.isEmpty) path value

def KernelSettings.setDefault (t : Transaction) (path : π) (previous : Int) : Program π Unit :=
  Script.modify fun w => w.withHost (w.host.setDefault t path previous)

def KernelSettings.delete (t : Transaction) (path : π) : Program π Unit :=
  Script.modify fun w => w.withHost (w.host.delete t path)

def KernelSettings.set (env : Env π) (t : Transaction) (path : π) (value : Int) :
    Program π Unit := do
  let previous ← readInt env path
  boundary env
  if previous = value then
    return
  boundary env
  KernelSettings.setDefault t path previous
  KernelSettings.write env t path value
  let current ← readInt env path
  if current ≠ value then
    Script.raise (.error .runtimeError s!"Kernel could not apply {env.pathText path}={value}")

def KernelSettings.settle (env : Env π) (t : Transaction) (path : π) :
    Program π (Option String) := do
  boundary env
  KernelSettings.delete t path
  return none

/-- One trip of the loop of `restore`: the message appended to `errors`, if any. -/
def KernelSettings.restoreEntry (env : Env π) (t : Transaction) (entry : π × Int) :
    Program π (Option String) :=
  Script.tryExcept
    (do
      let current ← readInt env entry.1
      if current = entry.2 then
        KernelSettings.settle env t entry.1
      else
        KernelSettings.write env t entry.1 entry.2
        let current ← readInt env entry.1
        if current ≠ entry.2 then
          Script.raise (.error .runtimeError "readback differs from original value")
        else
          KernelSettings.settle env t entry.1)
    fun
      | .error _ message => some do
        boundary env
        return some s!"{env.pathText entry.1}: {message}"
      | _ => none

def KernelSettings.restore (env : Env π) (t : Transaction) : Program π Unit := do
  boundary env
  let w ← Script.get
  let errors ← Script.collect (w.host.transaction t).original.reverse
    (KernelSettings.restoreEntry env t)
  boundary env
  -- the loop has run over every recorded path
  record (.restored t)
  if errors ≠ [] then
    Script.raise (.error .runtimeError
      ("Could not restore host settings: " ++ "; ".intercalate errors))

end MmMem

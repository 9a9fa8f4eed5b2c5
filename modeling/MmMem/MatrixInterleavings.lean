import MmMem.PeakInterleavings

namespace MmMem
open Prog
set_option autoImplicit true

/-- The managers of `setup_and_run` of `cpu_peak_bandwidth`: the memory node and the number of
workers of each. -/
def peakManagers (numa : NumaConfig) (config : Configuration) : List (Int32 × UInt32) :=
  if config.bandwidthMatrix then
    (matrixRows numa (2 <<< 30)).flatMap fun (i, nodes) =>
      nodes.map fun j => (.ofNat j, cellThreads numa config.numThreads i)
  else [(-1, config.numThreads)]

namespace Manager

/-- The managers one after the other, numbered from `k` on, with what each of them comes to. -/
def inTurn (measure : Nat → Int32 × UInt32 → Run Fault α) :
    Nat → List (Int32 × UInt32) → Run Fault (List α)
  | _, [] => .done []
  | k, manager :: managers => do
    let x ← measure k manager
    let later ← inTurn measure (k + 1) managers
    return x :: later

/-- `setup_and_run` of `cpu_idle_latency`, with the latency of each manager. -/
def setupAndRunIdleLatency (env : Nat → Surroundings) (numa : NumaConfig)
    (config : Configuration) : Run Fault (List UInt32) :=
  inTurn (fun k manager => idleLatency (env k) config manager.1 manager.2) 0
    (idleManagers numa config)

/-- `setup_and_run` of `cpu_peak_bandwidth`, with the rounds of each manager. -/
def setupAndRunPeakBandwidth (env : Nat → Surroundings) (numa : NumaConfig)
    (config : Configuration) : Run Fault (List (List PeakTotals)) :=
  inTurn (fun k manager => peakBandwidth (env k) config manager.1 (.ofNat numa.numCpus) manager.2) 0
    (peakManagers numa config)

theorem inTurn_returns {measure : Nat → Nat → Int32 × UInt32 → Run Fault α} (k : Nat)
    {managers : List (Int32 × UInt32)}
    (h : ∀ k, ∀ manager ∈ managers, Run.Returns P fun fuel => measure fuel k manager) :
    Run.Returns (fun xs => xs.length = managers.length ∧ ∀ x ∈ xs, P x)
      fun fuel => inTurn (measure fuel) k managers := by
  induction managers generalizing k with
  | nil => exact .done (fun _ => rfl) ⟨rfl, fun x hx => absurd hx List.not_mem_nil⟩
  | cons manager managers ih =>
    apply (h k manager List.mem_cons_self).bind
    intro x hx
    apply (ih (k + 1) fun k m hm => h k m (List.mem_cons_of_mem manager hm)).bind
    rintro later ⟨hlen, hall⟩
    exact .done (fun _ => rfl) ⟨congrArg Nat.succ hlen, List.forall_mem_cons.2 ⟨hx, hall⟩⟩

theorem inTurn_runManagers (env : Nat → Surroundings) (config : Configuration) (k : Nat)
    (managers : List (Int32 × UInt32)) :
    (inTurn (fun k manager => idleLatency (env k) config manager.1 manager.2) k managers >>=
      fun _ => .done ()) = runManagers env config k managers := by
  induction managers generalizing k with
  | nil => rfl
  | cons manager managers ih =>
    rw [inTurn, runManagers, Run.bind_assoc]
    apply Run.bind_congr rfl
    intro latPs
    rw [← ih, Run.bind_assoc]
    rfl

end Manager

namespace Joining

/-- The same with workers side by side; the memory of a manager is freed before the next is made,
so that each has its regions where it likes. -/
def inTurn (measure : Nat → Int32 × UInt32 → Joining α) :
    Nat → List (Int32 × UInt32) → Joining (List α)
  | _, [] => pure []
  | k, manager :: managers => do
    let x ← measure k manager
    let later ← inTurn measure (k + 1) managers
    return x :: later

def setupAndRunIdleLatency (env : Nat → Surroundings) (numa : NumaConfig) (config : Configuration)
    (base : Nat → Nat → Nat) : Joining (List UInt32) :=
  inTurn (fun k manager => idleLatency (env k) config manager.1 (base k) manager.2) 0
    (idleManagers numa config)

def setupAndRunPeakBandwidth (env : Nat → Surroundings) (numa : NumaConfig)
    (config : Configuration) (base : Nat → Nat → Nat) : Joining (List (List PeakTotals)) :=
  inTurn (fun k manager =>
    peakBandwidth (env k) config manager.1 (base k) (.ofNat numa.numCpus) manager.2) 0
    (peakManagers numa config)

end Joining

/-- No two threads are about to make accesses that conflict. -/
def ConflictFree (s : Sharing Nat ByteAccess ByteAccess.Answer Bytes ε α) : Prop :=
  ∀ i j o o' k k', i ≠ j → s.callers i = .call o k → s.callers j = .call o' k' → ¬ o.Conflict o'

variable {b : Bytes}

theorem raceFree_iff {p : Prog.Process ByteAccess ByteAccess.Answer Bytes ε α β} :
    p.RaceFree ↔ p.Within ConflictFree := by
  cases p <;> exact Iff.rfl

theorem settles_iff {m : ForkJoin ByteAccess ByteAccess.Answer Fault ω α} {x : Run Fault α} :
    Settles m b x ↔ (Process.start m b).Throughout byteMemory ConflictFree (· = x) := by
  constructor
  · exact fun h turns => ⟨raceFree_iff.1 (h.raceFree turns), h.agrees turns⟩
  · exact fun h => .of_agrees (fun turns => raceFree_iff.2 (h turns).1) fun turns => (h turns).2

theorem Settles.pure (x : α) (b : Bytes) :
    Settles (pure x : ForkJoin ByteAccess ByteAccess.Answer Fault ω α) b (.done x) :=
  settles_iff.2 (.done rfl)

theorem Settles.bind {m : ForkJoin ByteAccess ByteAccess.Answer Fault ω α} {x : Run Fault α}
    {f : α → ForkJoin ByteAccess ByteAccess.Answer Fault ω β} {g : α → Run Fault β}
    (h : Settles m b x) (hf : ∀ a b', Settles (f a) b' (g a)) :
    Settles (m >>= f) b (x >>= g) := by
  rw [settles_iff] at h ⊢
  apply h.bind
  · rintro a b' rfl
    exact settles_iff.1 (hf a b')
  · rintro e rfl
    rfl
  · rintro rfl
    rfl

theorem Settles.inTurn {measure : Nat → Int32 × UInt32 → Joining α}
    {measure' : Nat → Int32 × UInt32 → Run Fault α} {managers : List (Int32 × UInt32)}
    (h : ∀ (i : Nat) (manager : Int32 × UInt32), managers[i]? = some manager →
      ∀ b, Settles (measure (k + i) manager) b (measure' (k + i) manager)) (b : Bytes) :
    Settles (Joining.inTurn measure k managers) b (Manager.inTurn measure' k managers) := by
  induction managers generalizing k b with
  | nil => exact .pure [] b
  | cons manager managers ih =>
    rw [Joining.inTurn, Manager.inTurn]
    apply (h 0 manager rfl b).bind
    intro x b'
    refine Settles.bind (ih (fun i manager' hi b => ?_) b') fun later b'' => .pure _ b''
    rw [Nat.add_right_comm, Nat.add_assoc]
    exact h (i + 1) manager' hi b

/-- The regions of each of the managers lie apart. -/
def Apart (config : Configuration) (base : Nat → Nat → Nat) (managers : List (Int32 × UInt32)) :
    Prop :=
  ∀ (k : Nat) (manager : Int32 × UInt32), managers[k]? = some manager →
    ∃ P : Placement manager.2.toNat config.regionBytes, P.base = base k

theorem Apart.adjacent {config : Configuration} {managers : List (Int32 × UInt32)}
    (hpos : 0 < config.regionBytes)
    (hfits : ∀ manager ∈ managers, config.regionBytes * manager.2.toNat ≤ 2 ^ 64) :
    Apart config (fun _ i => config.regionBytes * i) managers :=
  fun _ _ hk => ⟨.adjacent _ _ hpos (hfits _ (List.mem_of_getElem? hk)), rfl⟩

variable {env : Nat → Surroundings} {config : Configuration}

theorem idle_matrix_settles (hsafe : config.LatencySafe) (halloc : config.Allocated)
    {numa : NumaConfig} {base : Nat → Nat → Nat} (h : Apart config base (idleManagers numa config))
    (env : Nat → Surroundings) (b : Bytes) :
    Settles (Joining.setupAndRunIdleLatency env numa config base) b
      (Manager.setupAndRunIdleLatency env numa config) := by
  apply Settles.inTurn
  intro k manager hk b
  obtain ⟨P, hP⟩ := h k manager hk
  rw [Nat.zero_add, ← hP]
  refine .of_refines (Joining.idleLatency_refines (env k) config manager.1 P b) fun e => ?_
  exact (idleLatency_faults_iff halloc manager.1 manager.2).2 (.inr hsafe) (env k) e

theorem peak_matrix_settles (halloc : config.Allocated) {numa : NumaConfig}
    {base : Nat → Nat → Nat} (h : Apart config base (peakManagers numa config))
    (env : Nat → Surroundings) (b : Bytes) :
    Settles (Joining.setupAndRunPeakBandwidth env numa config base) b
      (Manager.setupAndRunPeakBandwidth env numa config) := by
  apply Settles.inTurn
  intro k manager hk b
  obtain ⟨P, hP⟩ := h k manager hk
  rw [Nat.zero_add, ← hP]
  apply Settles.of_refines (Joining.peakBandwidth_refines (env k) config manager.1 _ P b)
  exact fun _ he => (Manager.peakBandwidth_safe halloc (env k) manager.1 _ manager.2).not_fault he

end MmMem

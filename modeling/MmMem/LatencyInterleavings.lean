import MmMem.LatencyReturns
import MmMem.SharedSetup

namespace MmMem
open Prog
set_option autoImplicit true

/-- Where `n` regions of that size lie: in the address space, and apart from each other. -/
structure Placement (n size : Nat) where
  base : Nat → Nat
  start : i < n → base i < 2 ^ 64
  fits : i < n → base i + size ≤ 2 ^ 64
  apart : i < n → j < n → i ≠ j → base i + size ≤ base j ∨ base j + size ≤ base i

namespace Placement

/-- One region behind the other. -/
def adjacent (n size : Nat) (hpos : 0 < size) (hfits : size * n ≤ 2 ^ 64) : Placement n size where
  base i := size * i
  start {i} hi := by
    have hle : size * (i + 1) ≤ size * n := Nat.mul_le_mul_left size hi
    rw [Nat.mul_succ] at hle
    omega
  fits {i} hi := by
    have hle : size * (i + 1) ≤ size * n := Nat.mul_le_mul_left size hi
    rw [Nat.mul_succ] at hle
    omega
  apart {i j} _ _ hne := by
    rcases Nat.lt_or_gt_of_ne hne with hlt | hlt
    · exact .inl (Nat.mul_le_mul_left size hlt)
    · exact .inr (Nat.mul_le_mul_left size hlt)

variable (P : Placement n size)

/-- The addresses of a worker are those of its region. -/
def territory : Territory Nat where
  mine i a := i < n ∧ P.base i ≤ a ∧ a < P.base i + size
  apart {v w a} hne hw hv := by
    obtain ⟨hwn, hw⟩ := hw
    obtain ⟨hvn, hv⟩ := hv
    have hap := P.apart hvn hwn hne
    omega

theorem owned (hi : i < n) : Owned (P.territory.division.may i) (P.base i) size :=
  ⟨P.start hi, P.fits hi, fun _ ho => ⟨hi, ho⟩⟩

end Placement

/-- A main thread that lets workers on one memory run and waits for them. -/
abbrev Joining (α : Type) : Type := ForkJoin ByteAccess ByteAccess.Answer Fault Worker α

namespace Joining

/-- `create()` and `join()`: a routine for each of the packets, at the start of its region. -/
def runWorkers (base : Nat → Nat) (routine : Nat → α → Accessing Worker) (packets : List α) :
    Joining (List Worker) :=
  ForkJoin.all (packets.mapIdx fun i pkt => routine (base i) pkt)

def measureIdleLatency (env : Surroundings) (config : Configuration) (base : Nat → Nat)
    (numThreads : UInt32) (round : Nat) (lastMeasuredLatPs : UInt32) (workers : List Worker) :
    Joining (List Worker × UInt32) := do
  let workers ← updatePackets numThreads.toNat
    (fun w => { w with pkt := w.pkt.forIdleLatency config lastMeasuredLatPs }) workers
  let workers ← runWorkers base (Accessing.latPtr env round) workers
  let total ← sumPackets Worker.finishedChases numThreads.toNat 0 workers ⟨0, 0⟩
  return (workers, env.castUInt32 (total.latency * 1e3))

def idleLatency (env : Surroundings) (config : Configuration) (node : Int32) (base : Nat → Nat)
    (numThreads : UInt32) : Joining UInt32 := do
  let workers ← runWorkers base (Accessing.allocLat env) (preparePackets config node numThreads)
  let (workers, lastLatPs) ← measureIdleLatency env config base numThreads 0 0 workers
  let (_, latPs) ← measureIdleLatency env config base numThreads 1 lastLatPs workers
  return latPs

def measureLoadedLatency (env : Surroundings) (numa : NumaConfig) (config : Configuration)
    (base : Nat → Nat) (kernelBw : Code) (round : Nat)
    (lastMeasuredLatPs lastMeasuredBwGbps : UInt32) (workers : List Worker) :
    Joining (List Worker × UInt32 × UInt32) := do
  let n := config.numThreads.toNat
  let workers ← updatePackets n (fun w => { w with
    pkt := w.pkt.forLoadedLatency config (.ofNat numa.numCpus) lastMeasuredLatPs
      lastMeasuredBwGbps }) workers
  let workers ← runWorkers base (Accessing.measureLoaded env kernelBw round) workers
  let first ← vectorAt workers 0
  let latencyChases : UInt64 := .ofNat first.finishedChases
  let total ← sumPackets Worker.finishedBytes (n - 1) 1 workers
    ⟨latencyChases * config.strideSizeB.toUInt64, first.execTime⟩
  let latency := Totals.latency ⟨latencyChases, first.execTime⟩
  return (workers, env.castUInt32 (latency * 1e3),
    env.castUInt32 (total.memBwGbps config.numThreads))

/-- The rounds of `main` of `cpu_loaded_latency`, with what each of them returns. -/
def loadedRounds (env : Surroundings) (numa : NumaConfig) (config : Configuration)
    (base : Nat → Nat) : List (Int32 × Code) → Nat → UInt32 → UInt32 → List Worker →
      Joining (List (UInt32 × UInt32))
  | [], _, _, _, _ => pure []
  | (_, kernelBw) :: items, round, lastLatPs, lastBwGbps, workers => do
    let (workers, latPs, bwGbps) ←
      measureLoadedLatency env numa config base kernelBw round lastLatPs lastBwGbps workers
    let later ← loadedRounds env numa config base items (round + 1) latPs bwGbps workers
    return (latPs, bwGbps) :: later

def loadedLatency (env : Surroundings) (numa : NumaConfig) (config : Configuration)
    (base : Nat → Nat) (items : List (Int32 × Code)) : Joining (List (UInt32 × UInt32)) := do
  let workers ← runWorkers base (Accessing.allocLoaded env)
    (preparePackets config (-1) config.numThreads)
  loadedRounds env numa config base items 0 0 0 workers

end Joining

/-- What the rounds of `main` return when the workers run one after the other. -/
def loadedRows (env : Surroundings) (numa : NumaConfig) (config : Configuration) :
    List Int32 → Nat → UInt32 → UInt32 → List Worker → Run Fault (List (UInt32 × UInt32))
  | [], _, _, _, _ => .done []
  | _ :: delays, round, lastLatPs, lastBwGbps, workers => do
    let (workers, latPs, bwGbps) ←
      measureLoadedLatency env numa config round lastLatPs lastBwGbps workers
    let later ← loadedRows env numa config delays (round + 1) latPs bwGbps workers
    return (latPs, bwGbps) :: later

def loadedLatencyRows (env : Surroundings) (numa : NumaConfig) (config : Configuration)
    (delays : List Int32) : Run Fault (List (UInt32 × UInt32)) := do
  let workers ← Run.all
    ((preparePackets config (-1) config.numThreads).map (Worker.allocLoaded env))
  loadedRows env numa config delays 0 0 0 workers

variable {config : Configuration}

theorem loadedRows_rounds (env : Surroundings) (numa : NumaConfig) (config : Configuration)
    (delays : List Int32) (round : Nat) (lastLatPs lastBwGbps : UInt32) (workers : List Worker) :
    (loadedRows env numa config delays round lastLatPs lastBwGbps workers >>= fun _ => .done ()) =
      loadedRounds env numa config delays round lastLatPs lastBwGbps workers := by
  induction delays generalizing round lastLatPs lastBwGbps workers with
  | nil => rfl
  | cons delay delays ih =>
    rw [loadedRows, loadedRounds, Run.bind_assoc]
    apply Run.bind_congr rfl
    rintro ⟨workers, latPs, bwGbps⟩
    dsimp only
    rw [← ih, Run.bind_assoc]
    rfl

theorem loadedLatencyRows_not_fault (h : config.LatencySafe) (halloc : config.Allocated)
    (hn : config.numThreads ≠ 0) (env : Surroundings) (numa : NumaConfig) (delays : List Int32)
    (e : Fault) : loadedLatencyRows env numa config delays ≠ .fault e := by
  intro hfault
  have hrows : (loadedLatencyRows env numa config delays >>= fun _ => .done ()) =
      loadedLatency env numa config delays := by
    rw [loadedLatencyRows, loadedLatency, Run.bind_assoc]
    exact Run.bind_congr rfl fun workers => loadedRows_rounds ..
  rw [hfault] at hrows
  exact (loadedLatency_safe h halloc hn env numa delays).not_fault hrows.symm

/-- All workers are where they have been placed. -/
def AllPlaced (P : Placement n size) (chases : Worker → Prop) (workers : List Worker) (b : Bytes) :
    Prop :=
  workers.length = n ∧ ∀ (i : Nat) (w : Worker), workers[i]? = some w →
    w.Placed (P.base i) size (chases w) b

namespace Joining

variable {P : Placement n size} {chases : Worker → Prop} {b : Bytes} {workers : List Worker}

/-- Routines that keep to the regions come to what they come to one after the other. -/
theorem runWorkers_refines (chases : Worker → Prop) {routine : Nat → α → Accessing Worker}
    {f : α → Run Fault Worker}
    {packets : List α} (hlen : packets.length = n)
    (h : ∀ (i : Nat) (pkt : α), packets[i]? = some pkt → i < n →
      (routine (P.base i) pkt).Refines byteMemory (P.territory.division.may i)
        (fun w b' w' => w = w' ∧ w.Placed (P.base i) size (chases w) b') b (f pkt)) :
    (runWorkers P.base routine packets).Refines P.territory.division
      (fun ws b' ws' => ws = ws' ∧ AllPlaced P chases ws b') b (Run.all (packets.map f)) := by
  have hlength : (packets.mapIdx fun i pkt => routine (P.base i) pkt).length =
      (packets.map f).length := by rw [List.length_mapIdx, List.length_map]
  have hall := ForkJoin.Refines.all (D := P.territory.division) (s := b)
    (fun i w b' w' => w = w' ∧ w.Placed (P.base i) size (chases w) b') hlength (by
      intro i t ht
      rw [List.getElem?_mapIdx, Option.map_eq_some_iff] at ht
      obtain ⟨pkt, hpkt, rfl⟩ := ht
      refine ⟨f pkt, by rw [List.getElem?_map, hpkt]; rfl, h i pkt hpkt ?_⟩
      exact hlen ▸ (List.getElem?_eq_some_iff.1 hpkt).1)
  rw [List.length_map, hlen] at hall
  refine hall.mono ?_
  rintro ws b' ws' ⟨hws, hws', hplaced⟩
  have heq : ws = ws' := by
    apply List.ext_getElem (hws.trans hws'.symm)
    intro i hi hi'
    obtain ⟨w', hw', _, _, rfl, _⟩ := hplaced i _ (List.getElem?_eq_getElem hi)
    exact Option.some.inj (hw'.symm.trans (List.getElem?_eq_getElem hi'))
  refine ⟨heq, hws, fun i w hw => ?_⟩
  obtain ⟨_, _, own, halike, -, hown⟩ := hplaced i w hw
  have hi : i < n := hws ▸ (List.getElem?_eq_some_iff.1 hw).1
  exact hown.congr fun a hle hlt => (halike a ⟨hi, hle, hlt⟩).symm

theorem AllPlaced.map (h : AllPlaced P chases workers b) {f : Worker → Worker}
    (hf : ∀ w, (f w).region = w.region ∧ (f w).memory = w.memory ∧ (chases (f w) → chases w)) :
    AllPlaced P chases (workers.map f) b := by
  refine ⟨(List.length_map _).trans h.1, fun i w hw => ?_⟩
  rw [List.getElem?_map, Option.map_eq_some_iff] at hw
  obtain ⟨w, hw, rfl⟩ := hw
  have hplaced := h.2 i w hw
  obtain ⟨hregion, hmemory, hchases⟩ := hf w
  exact ⟨hregion ▸ hplaced.sized, fun hc => hmemory ▸ hplaced.chain (hchases hc)⟩

theorem measureIdleLatency_refines {numThreads : UInt32} {P : Placement numThreads.toNat size}
    (h : AllPlaced P (fun _ => True) workers b) (env : Surroundings) (config : Configuration)
    (round : Nat) (lastLatPs : UInt32) :
    (measureIdleLatency env config P.base numThreads round lastLatPs workers).Refines
      P.territory.division (fun x b' y => x = y ∧ AllPlaced P (fun _ => True) x.1 b') b
      (MmMem.measureIdleLatency env config numThreads round lastLatPs workers) := by
  have hready := AllPlaced.map h (f := fun w => { w with
    pkt := w.pkt.forIdleLatency config lastLatPs }) fun w => ⟨rfl, rfl, id⟩
  rw [measureIdleLatency, MmMem.measureIdleLatency, updatePackets_eq _ _ h.1, Run.done_bind]
  refine (runWorkers_refines (fun _ => True) hready.1 ?_).bind ?_
  · intro i w hw hi
    have hplaced := hready.2 i w hw
    apply (Accessing.latPtr_refines (hplaced.owned (P.owned hi)) (hplaced.represents trivial) env
      round).mono
    rintro w' b' w'' ⟨rfl, rfl, hlike⟩
    exact ⟨rfl, hplaced.setUpLike hlike fun _ => rfl⟩
  · rintro ws b' _ ⟨rfl, hplaced⟩
    exact .lift_bind fun total _ => .done ⟨rfl, hplaced⟩

theorem measureLoadedLatency_refines {P : Placement config.numThreads.toNat size}
    (h : AllPlaced P (fun w => w.pkt.threadId = 0) workers b) {kernelBw : Code}
    (hkernel : Sweeps 256 kernelBw) (env : Surroundings) (numa : NumaConfig) (round : Nat)
    (lastLatPs lastBwGbps : UInt32) :
    (measureLoadedLatency env numa config P.base kernelBw round lastLatPs lastBwGbps
      workers).Refines P.territory.division
      (fun x b' y => x = y ∧ AllPlaced P (fun w => w.pkt.threadId = 0) x.1 b') b
      (MmMem.measureLoadedLatency env numa config round lastLatPs lastBwGbps workers) := by
  have hready := AllPlaced.map h (f := fun w => { w with
    pkt := w.pkt.forLoadedLatency config (.ofNat numa.numCpus) lastLatPs lastBwGbps })
    fun w => ⟨rfl, rfl, id⟩
  simp only [measureLoadedLatency, MmMem.measureLoadedLatency]
  rw [updatePackets_eq _ _ h.1, Run.done_bind]
  refine (runWorkers_refines (fun w => w.pkt.threadId = 0) hready.1 ?_).bind ?_
  · intro i w hw hi
    have hplaced := hready.2 i w hw
    apply (Accessing.measureLoaded_refines (hplaced.owned (P.owned hi)) hplaced.represents hkernel
      env round).mono
    rintro w' b' w'' ⟨hb', rfl, hlike⟩
    rw [hlike.1]
    exact ⟨rfl, hplaced.setUpLike hlike hb'⟩
  · rintro ws b' _ ⟨rfl, hplaced⟩
    exact .lift_bind fun first _ => .lift_bind fun total _ => .done ⟨rfl, hplaced⟩

theorem loadedRounds_refines {P : Placement config.numThreads.toNat size}
    (h : AllPlaced P (fun w => w.pkt.threadId = 0) workers b) {items : List (Int32 × Code)}
    (hitems : ∀ item ∈ items, Sweeps 256 item.2) (env : Surroundings) (numa : NumaConfig)
    (round : Nat) (lastLatPs lastBwGbps : UInt32) :
    (loadedRounds env numa config P.base items round lastLatPs lastBwGbps workers).Refines
      P.territory.division (fun x _ y => x = y) b
      (loadedRows env numa config (items.map Prod.fst) round lastLatPs lastBwGbps workers) := by
  induction items generalizing round lastLatPs lastBwGbps workers b with
  | nil => exact .done rfl
  | cons item items ih =>
    obtain ⟨hitem, hitems⟩ := List.forall_mem_cons.1 hitems
    rw [loadedRounds, List.map_cons, loadedRows]
    apply (measureLoadedLatency_refines h hitem env numa round lastLatPs lastBwGbps).bind
    rintro ⟨ws, latPs, bwGbps⟩ b' _ ⟨rfl, hplaced⟩
    apply (ih hplaced hitems (round + 1) latPs bwGbps).bind
    rintro later b'' _ rfl
    exact .done rfl

end Joining

theorem preparePackets_size {node : Int32} {numThreads : UInt32} {pkt : MemLatBwThreadPacket}
    {i : Nat} (h : (preparePackets config node numThreads)[i]? = some pkt) :
    (pkt.regionSizeKb * 1024).toNat = config.regionBytes := by
  obtain ⟨threadId, rfl⟩ := mem_preparePackets (List.mem_of_getElem? h)
  rfl

namespace Joining

variable {b : Bytes}

theorem idleLatency_refines {numThreads : UInt32} (env : Surroundings) (config : Configuration)
    (node : Int32) (P : Placement numThreads.toNat config.regionBytes) (b : Bytes) :
    (idleLatency env config node P.base numThreads).Refines P.territory.division
      (fun x _ y => x = y) b (MmMem.idleLatency env config node numThreads) := by
  rw [idleLatency, MmMem.idleLatency]
  refine (runWorkers_refines (fun _ => True) (preparePackets_length ..) ?_).bind ?_
  · intro i pkt hpkt hi
    exact Accessing.allocLat_refines (preparePackets_size hpkt) (P.owned hi) env
  · rintro workers b' _ ⟨rfl, hplaced⟩
    apply (measureIdleLatency_refines hplaced env config 0 0).bind
    rintro ⟨workers, last⟩ b'' _ ⟨rfl, hplaced⟩
    apply (measureIdleLatency_refines hplaced env config 1 last).bind
    rintro ⟨workers, ps⟩ _ _ ⟨rfl, -⟩
    exact .done rfl

theorem loadedLatency_refines (env : Surroundings) (numa : NumaConfig) {config : Configuration}
    (P : Placement config.numThreads.toNat config.regionBytes) {items : List (Int32 × Code)}
    (hitems : ∀ item ∈ items, Sweeps 256 item.2) (b : Bytes) :
    (loadedLatency env numa config P.base items).Refines P.territory.division
      (fun x _ y => x = y) b (loadedLatencyRows env numa config (items.map Prod.fst)) := by
  rw [loadedLatency, loadedLatencyRows]
  refine (runWorkers_refines (fun w => w.pkt.threadId = 0)
    (preparePackets_length ..) ?_).bind ?_
  · intro i pkt hpkt hi
    exact (Accessing.allocLoaded_refines (preparePackets_size hpkt) (P.owned hi) env True).mono
      fun w b' w' hw => ⟨hw.1, hw.2.sized, fun _ => hw.2.chain trivial⟩
  · rintro workers b' _ ⟨rfl, hplaced⟩
    exact loadedRounds_refines hplaced hitems env numa 0 0 0

end Joining

/-- Whatever the order of its accesses, the process has no race, ends with this result if it ends,
and from wherever it has got to it can. -/
structure Settles (m : ForkJoin ByteAccess ByteAccess.Answer Fault ω α) (b : Bytes)
    (x : Run Fault α) : Prop where
  raceFree : ∀ turns, ((Process.start m b).run byteMemory turns).RaceFree
  agrees : ∀ turns y, (Process.start m b).run byteMemory turns = .done y → y = x
  ends : ∀ turns, ∃ more, (Process.start m b).run byteMemory (turns ++ more) = .done x

variable {b : Bytes}

/-- A process can always come to an end, so that its ends decide. -/
theorem Settles.of_agrees {m : ForkJoin ByteAccess ByteAccess.Answer Fault ω α} {x : Run Fault α}
    (hrace : ∀ turns, ((Process.start m b).run byteMemory turns).RaceFree)
    (h : ∀ turns y, (Process.start m b).run byteMemory turns = .done y → y = x) :
    Settles m b x := by
  refine ⟨hrace, h, fun turns => ?_⟩
  obtain ⟨more, y, hy⟩ := Process.finishes byteMemory ((Process.start m b).run byteMemory turns)
  rw [← Process.run_append] at hy
  exact ⟨more, h _ y hy ▸ hy⟩

theorem Settles.of_refines {T : Territory Nat} {m : ForkJoin ByteAccess ByteAccess.Answer Fault ω α}
    {x : Run Fault α} (h : m.Refines T.division (fun a _ a' => a = a') b x)
    (hx : ∀ e, x ≠ .fault e) :
    Settles m b x := by
  have hkept := (Process.Kept.of_refines h hx).run
  refine .of_agrees (fun turns => (hkept turns).raceFree) fun turns y hy => ?_
  have hend := hkept turns
  rw [hy] at hend
  have hmatches : y.Matches (fun a a' => ∃ _ : Bytes, a = a') x := hend
  exact (hmatches.mono fun a a' ⟨_, he⟩ => he).eq

/-- With enough fuel the process returns, and always with the same result. -/
def Delivers (P : α → Prop) (m : Nat → ForkJoin ByteAccess ByteAccess.Answer Fault ω α)
    (b : Bytes) : Prop :=
  ∃ a, P a ∧ ∃ enough, ∀ fuel ≥ enough, Settles (m fuel) b (.done a)

theorem Delivers.of_returns {m : Nat → ForkJoin ByteAccess ByteAccess.Answer Fault ω α}
    {x : Nat → Run Fault α} (h : ∀ fuel, Settles (m fuel) b (x fuel)) (hx : Run.Returns P x) :
    Delivers P m b := by
  obtain ⟨a, ha, enough, hdone⟩ := hx
  exact ⟨a, ha, enough, fun fuel hfuel => hdone fuel hfuel ▸ h fuel⟩

variable {config : Configuration} {env : Surroundings}

theorem loadedRows_returns (hn : config.numThreads ≠ 0) (henv : env.Timely config)
    (numa : NumaConfig) (delays : List Int32) (round : Nat) (lastLatPs lastBwGbps : UInt32)
    {workers : List Worker} (hlen : workers.length = config.numThreads.toNat)
    (h : ∀ w ∈ workers, w.Working) :
    Run.Returns (fun rows => rows.length = delays.length) fun fuel =>
      loadedRows { env with fuel } numa config delays round lastLatPs lastBwGbps workers := by
  induction delays generalizing round lastLatPs lastBwGbps workers with
  | nil => exact .done (fun _ => rfl) rfl
  | cons delay delays ih =>
    apply (measureLoadedLatency_returns hn henv numa round lastLatPs lastBwGbps hlen h).bind
    rintro ⟨workers', latPs, bwGbps⟩ ⟨hlen', hall⟩
    apply (ih (round + 1) latPs bwGbps hlen' hall).bind
    intro later hlater
    exact .done (fun _ => rfl) (congrArg Nat.succ hlater)

theorem loadedLatencyRows_returns (hsafe : config.LatencySafe) (halloc : config.Allocated)
    (hn : config.numThreads ≠ 0) (hm : config.Measurable) (hs : config.Streams)
    (henv : env.Timely config) (numa : NumaConfig) (delays : List Int32) :
    Run.Returns (fun rows => rows.length = delays.length) fun fuel =>
      loadedLatencyRows { env with fuel } numa config delays := by
  refine (Run.Returns.all (P := Worker.Working) ?_).bind ?_
  · intro pkt hpkt
    obtain ⟨threadId, rfl⟩ := mem_preparePackets hpkt
    exact hsafe.allocLoaded_returns halloc hm hs hn env (-1) threadId
  · rintro workers ⟨hlen, hall⟩
    rw [preparePackets_length] at hlen
    exact loadedRows_returns hn henv numa delays 0 0 0 hlen hall

end MmMem

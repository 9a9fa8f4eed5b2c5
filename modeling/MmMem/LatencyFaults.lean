import MmMem.LatencyDrivers
import MmMem.LatencyGeometry

namespace MmMem
open Prog
set_option autoImplicit true

/-- The size of the region the options ask for, as `mem_region_alloc_lat` computes it. -/
def Configuration.regionBytes (config : Configuration) : Nat := (config.regionSizeKb * 1024).toNat

def Configuration.chunkBytes (config : Configuration) : Nat := (config.chunkSizeKb * 1024).toNat

/-- The integers of the region of a latency worker. -/
def Configuration.latRegion (config : Configuration) (memType : Int) : MemRegion :=
  .layout config.regionBytes config.regionBytes config.chunkBytes config.strideSizeB.toNat
    memType config.useHugepage.toInt32.toInt

/-- The configurations whose latency workers never fault. -/
def Configuration.LatencySafe (config : Configuration) : Prop :=
  config.chunkBytes ≠ 0 ∧ config.strideSizeB ≠ 0 ∧
    (config.latRegion 0).Chaseable config.accessPattern

instance (config : Configuration) : Decidable config.LatencySafe :=
  inferInstanceAs (Decidable (_ ∧ _ ∧ _))

/-- No allocator hands out more than half the address space. -/
def Configuration.Allocated (config : Configuration) : Prop := config.regionBytes < 2 ^ 63

instance (config : Configuration) : Decidable config.Allocated := inferInstanceAs (Decidable (_ < _))

variable {config : Configuration}

theorem Configuration.latRegion_plain (halloc : config.Allocated) (hchunk : config.chunkBytes ≠ 0)
    (hstride : config.strideSizeB ≠ 0) (memType : Int) : (config.latRegion memType).Plain := by
  have hsize : config.regionBytes < 2 ^ 63 := halloc
  have hpos : config.strideSizeB.toNat ≠ 0 := fun h0 => hstride (UInt32.toNat_inj.1 h0)
  have hnew : MemRegion.new config.regionBytes config.regionBytes config.chunkBytes
      config.strideSizeB.toNat memType config.useHugepage.toInt32.toInt =
        .done (config.latRegion memType) := by
    rw [MemRegion.new_eq, if_neg (not_or.2 ⟨hchunk, hpos⟩)]
    rfl
  have hchunklt : config.chunkBytes < 2 ^ 32 := UInt32.toNat_lt _
  refine ⟨.of_new (by omega) (Nat.le_refl _) (by omega) hnew, rfl, hsize, UInt32.toNat_lt _, ?_⟩
  change 1024 ≤ if config.chunkBytes > config.regionBytes then 4096 else config.chunkBytes
  split
  · decide
  · have hmul : config.chunkBytes = config.chunkSizeKb.toNat * 1024 % 2 ^ 32 :=
      UInt32.toNat_mul _ _
    omega

variable {node : Int32} {numThreads threadId : UInt32}

theorem memRegionAllocLat_eq (rand : Nat → Nat) (fuel : Nat) (config : Configuration) (node : Int32)
    (numThreads threadId : UInt32) :
    memRegionAllocLat rand fuel (prepareMemLatBwThreadPacket config node numThreads threadId) =
      if config.chunkBytes = 0 ∨ config.strideSizeB.toNat = 0 then .fault .divideByZero
      else (config.latRegion (memTypeNode0 + node).toInt).initByPattern config.accessPattern rand fuel
        .zeroed >>= fun m => .done (config.latRegion (memTypeNode0 + node).toInt, m) := by
  rw [memRegionAllocLat]
  change MemRegion.new config.regionBytes config.regionBytes config.chunkBytes
    config.strideSizeB.toNat (memTypeNode0 + node).toInt config.useHugepage.toInt32.toInt >>= _ = _
  rw [MemRegion.new_eq]
  split
  · rfl
  · rfl

/-- What a latency worker keeps: a region that is safe to chase through. -/
def Worker.Chased (w : Worker) : Prop := w.region.Chased w.memory

theorem Configuration.LatencySafe.allocLat (h : config.LatencySafe) (halloc : config.Allocated)
    (env : Surroundings) (node : Int32) (numThreads threadId : UInt32) :
    Run.Safe (fun w => w.Chased ∧ w.pkt.threadId = threadId)
      (Worker.allocLat env (prepareMemLatBwThreadPacket config node numThreads threadId)) := by
  obtain ⟨hchunk, hstride, hchase⟩ := h
  have hpos : config.strideSizeB.toNat ≠ 0 := fun h0 => hstride (UInt32.toNat_inj.1 h0)
  have hplain := Configuration.latRegion_plain halloc hchunk hstride (memTypeNode0 + node).toInt
  rw [Worker.allocLat, memRegionAllocLat_eq, if_neg (not_or.2 ⟨hchunk, hpos⟩), Run.bind_assoc]
  apply (hplain.initByPattern_safe hchase _ _).bind
  intro m hm
  exact .done ⟨hm, rfl⟩

theorem Worker.Chased.latPtr {w : Worker} (h : w.Chased) (env : Surroundings) (round : Nat) :
    Run.Safe (fun w' => w'.Chased ∧ w'.pkt = w.pkt) (w.latPtr env round) := by
  apply (latPtr_safe h _ _ _).bind
  intro s _
  exact .done ⟨h, rfl⟩

theorem updatePackets_eq (f : Worker → Worker) (workers : List Worker) (h : workers.length = n) :
    updatePackets n f workers = .done (workers.map f) := by
  have hloop := Run.Safe.loop (ε := Fault) (i := 0) (n := n) (s := workers)
    (I := fun i s => s.length = workers.length ∧
      ∀ j, s[j]? = if j < i then (workers[j]?).map f else workers[j]?)
    (f := fun i workers => do
      let w ← vectorAt workers i
      vectorSet workers i (f w)) ⟨rfl, fun j => (if_neg (Nat.not_lt_zero j)).symm⟩ (by
    intro i s _ hi ⟨hlen, hget⟩
    have hlt : i < s.length := by omega
    have hsame : s[i] = workers[i] := by
      have hgi := hget i
      rw [if_neg (Nat.lt_irrefl i), List.getElem?_eq_getElem hlt,
        List.getElem?_eq_getElem (by omega)] at hgi
      exact Option.some.inj hgi
    rw [vectorAt_eq hlt, Run.done_bind, vectorSet_eq _ hlt, Run.safe_done]
    refine ⟨by rw [List.length_set, hlen], fun j => ?_⟩
    rcases Nat.lt_trichotomy j i with hj | rfl | hj
    · rw [List.getElem?_set_ne (by omega), hget j, if_pos hj, if_pos (by omega)]
    · rw [List.getElem?_set_self (by omega), if_pos (Nat.lt_succ_self j),
        List.getElem?_eq_getElem (by omega), Option.map_some, hsame]
    · rw [List.getElem?_set_ne (by omega), hget j, if_neg (by omega), if_neg (by omega)])
  have hnot : Run.loop (ε := Fault) (fun i workers => do
      let w ← vectorAt workers i
      vectorSet workers i (f w)) n 0 workers ≠ .running :=
    Run.loop_ne_running (fun _ _ => Run.bind_ne_running vectorAt_ne_running
      fun _ _ => vectorSet_ne_running) _ _ _
  obtain ⟨s, hs, hlen, hget⟩ := hloop.exists_done hnot
  rw [updatePackets, hs]
  congr 1
  apply List.ext_getElem?
  intro j
  rw [hget j, List.getElem?_map]
  split
  · rfl
  · rw [List.getElem?_eq_none (by omega), Option.map_none]

theorem sumPackets_safe (count : Worker → Nat) (workers : List Worker)
    (h : first + n ≤ workers.length) (total : Totals) :
    Run.Safe (fun _ => True) (sumPackets count n first workers total) := by
  apply Run.Safe.loop (I := fun _ _ => True) trivial
  intro i total _ hi _
  rw [vectorAt_eq (by omega), Run.done_bind]
  exact .done trivial

theorem preparePackets_length (config : Configuration) (node : Int32) (numThreads : UInt32) :
    (preparePackets config node numThreads).length = numThreads.toNat := by
  rw [preparePackets, List.length_map, List.length_range]

theorem mem_preparePackets {pkt : MemLatBwThreadPacket}
    (h : pkt ∈ preparePackets config node numThreads) :
    ∃ threadId, pkt = prepareMemLatBwThreadPacket config node numThreads threadId := by
  obtain ⟨i, -, rfl⟩ := List.mem_map.1 h
  exact ⟨_, rfl⟩

theorem preparePackets_cons (config : Configuration) (node : Int32) (hn : numThreads ≠ 0) :
    ∃ rest,
    preparePackets config node numThreads =
      prepareMemLatBwThreadPacket config node numThreads 0 :: rest := by
  obtain ⟨k, hk⟩ : ∃ k, numThreads.toNat = k + 1 :=
    ⟨numThreads.toNat - 1, by
      have hne : numThreads.toNat ≠ 0 := fun h0 => hn (UInt32.toNat_inj.1 h0)
      omega⟩
  rw [preparePackets, hk, List.range_succ_eq_map, List.map_cons]
  exact ⟨_, rfl⟩

theorem measureIdleLatency_safe (env : Surroundings) (round : Nat) (last : UInt32)
    {workers : List Worker} (hlen : workers.length = numThreads.toNat)
    (h : ∀ w ∈ workers, w.Chased) :
    Run.Safe (fun p => p.1.length = numThreads.toNat ∧ ∀ w ∈ p.1, w.Chased)
      (measureIdleLatency env config numThreads round last workers) := by
  rw [measureIdleLatency, updatePackets_eq _ _ hlen, Run.done_bind]
  apply (Run.Safe.all (P := Worker.Chased) _).bind
  · rintro workers' ⟨hlen', hall⟩
    rw [List.length_map, List.length_map, hlen] at hlen'
    apply (sumPackets_safe _ _ (by omega) _).bind
    intro total _
    exact .done ⟨hlen', hall⟩
  · intro x hx
    obtain ⟨w, hw, rfl⟩ := List.mem_map.1 hx
    obtain ⟨w', hw', rfl⟩ := List.mem_map.1 hw
    have hchased : Worker.Chased { w' with
      pkt := w'.pkt.forIdleLatency config last } := h w' hw'
    exact (hchased.latPtr env round).mono fun _ h => h.1

/-- The managers whose workers are all set up with a ring are measured without a fault. -/
theorem idleLatency_safe {env : Surroundings} {node : Int32} {numThreads : UInt32}
    (h : ∀ pkt ∈ preparePackets config node numThreads,
      Run.Safe Worker.Chased (Worker.allocLat env pkt)) :
    Run.Safe (fun _ => True) (idleLatency env config node numThreads) := by
  apply (Run.Safe.all (P := Worker.Chased) _).bind
  · rintro workers ⟨hlen, hall⟩
    rw [List.length_map, preparePackets_length] at hlen
    apply (measureIdleLatency_safe env 0 0 hlen hall).bind
    rintro ⟨workers, last⟩ ⟨hlen, hall⟩
    apply (measureIdleLatency_safe env 1 last hlen hall).bind
    rintro ⟨workers, ps⟩ -
    exact .done trivial
  · intro x hx
    obtain ⟨pkt, hpkt, rfl⟩ := List.mem_map.1 hx
    exact h pkt hpkt

/-- Workers whose shuffles all return, with fuel for every initializer. -/
def quietSurroundings : Surroundings where
  rand _ := quietRand
  clock _ _ _ := 0
  outOfRange _ := 0
  outOfRangeFloat _ := 0
  fuel := 2 ^ 64

theorem allocLat_quiet (halloc : config.Allocated) (node : Int32) (numThreads threadId : UInt32) :
    Worker.allocLat quietSurroundings
      (prepareMemLatBwThreadPacket config node numThreads threadId) ≠ .running := by
  rw [Worker.allocLat, memRegionAllocLat_eq]
  split
  · exact nofun
  · next hne =>
    rw [not_or] at hne
    have hstride : config.strideSizeB ≠ 0 := fun h0 => hne.2 (by rw [h0]; rfl)
    have hplain := Configuration.latRegion_plain halloc hne.1 hstride (memTypeNode0 + node).toInt
    rw [Run.bind_assoc]
    exact Run.bind_ne_running (hplain.wellFormed.initByPattern_quiet hplain.allocated
      hplain.active_add_line _ (Nat.le_refl _)) fun _ _ => nofun

theorem Worker.allocLat_pkt {env : Surroundings} {pkt : MemLatBwThreadPacket} {w : Worker}
    (h : Worker.allocLat env pkt = .done w) : w.pkt = pkt := by
  obtain ⟨⟨region, memory⟩, -, h⟩ := Run.bind_eq_done.1 h
  cases h
  rfl

theorem Worker.latPtr_fault {env : Surroundings} {w : Worker} {round : Nat}
    (h : MmMem.latPtr (kernelLat w.region w.memory) 0 (env.clock round w.pkt.threadId.toNat)
      env.fuel w.pkt w.region = .fault e) : w.latPtr env round = .fault e := by
  rw [Worker.latPtr, h]
  rfl

theorem latencySafe_of_worker (halloc : config.Allocated) {w : Worker}
    (hw : Worker.allocLat quietSurroundings
      (prepareMemLatBwThreadPacket config node numThreads threadId) = .done w)
    (pkt : MemLatBwThreadPacket)
    (hlat : ∀ e, Worker.latPtr quietSurroundings 0 { w with pkt } ≠ .fault e) :
    config.LatencySafe := by
  rw [Worker.allocLat, memRegionAllocLat_eq] at hw
  split at hw
  · cases hw
  · next hne =>
    rw [not_or] at hne
    have hstride : config.strideSizeB ≠ 0 := fun h0 => hne.2 (by rw [h0]; rfl)
    have hplain := Configuration.latRegion_plain halloc hne.1 hstride (memTypeNode0 + node).toInt
    rw [Run.bind_assoc] at hw
    obtain ⟨m, hinit, hw⟩ := Run.bind_eq_done.1 hw
    cases hw
    refine ⟨hne.1, hstride, ?_⟩
    apply hplain.initByPattern_done hinit
    by_contra hkept
    rw [MemRegion.StartKept, not_or, MemRegion.NeverChased, Nat.not_lt] at hkept
    have hslot : m.slot 0 = none := by
      rcases hm : m.slot 0 with _ | target
      · rfl
      · exact absurd ⟨target, hm⟩ hkept.2
    obtain ⟨e, he⟩ := latPtr_fault hplain.wellFormed.line_pos hplain.line_lt hkept.1 hslot
      (fun _ => 0) (2 ^ 64 - 1) pkt
    exact hlat e (Worker.latPtr_fault he)

theorem latencySafe_of_all (halloc : config.Allocated) {w : Worker}
    (hw : Worker.allocLat quietSurroundings
      (prepareMemLatBwThreadPacket config node numThreads threadId) = .done w)
    (pkt : MemLatBwThreadPacket) (rest : List (Run Fault Worker))
    (hall : ∀ e, Run.all (Worker.latPtr quietSurroundings 0 { w with pkt } :: rest) ≠ .fault e) :
    config.LatencySafe := by
  apply latencySafe_of_worker halloc hw pkt
  intro e he
  obtain ⟨e', he'⟩ := Run.all_fault (List.mem_cons.2 (.inl he.symm))
  exact hall e' he'

/-- Managers that are set up quietly return or fault, and return with all of their workers. -/
theorem all_set_up {alloc : MemLatBwThreadPacket → Run Fault Worker}
    (hquiet : ∀ threadId, alloc (prepareMemLatBwThreadPacket config node numThreads threadId) ≠
      .running)
    (hfault : ∀ e, Run.all ((preparePackets config node numThreads).map alloc) ≠ .fault e) :
    ∃ workers, Run.all ((preparePackets config node numThreads).map alloc) = .done workers ∧
      workers.length = numThreads.toNat := by
  have hnot : Run.all ((preparePackets config node numThreads).map alloc) ≠ .running := by
    apply Run.all_ne_running
    intro x hx
    obtain ⟨pkt, hpkt, rfl⟩ := List.mem_map.1 hx
    obtain ⟨threadId, rfl⟩ := mem_preparePackets hpkt
    exact hquiet threadId
  obtain ⟨workers, hw⟩ := Run.exists_done_of_not hnot hfault
  refine ⟨workers, hw, ?_⟩
  rw [Run.all_done_length hw, List.length_map, preparePackets_length]

theorem latencySafe_of_idle (halloc : config.Allocated) (hn : numThreads ≠ 0)
    (h : ∀ e, idleLatency quietSurroundings config node numThreads ≠ .fault e) :
    config.LatencySafe := by
  obtain ⟨workers, hw, hlen⟩ := all_set_up (allocLat_quiet halloc node numThreads)
    fun e he => h e (by rw [idleLatency, he]; rfl)
  obtain ⟨rest, hcons⟩ := preparePackets_cons config node hn
  have hfirst := hw
  rw [hcons, List.map_cons] at hfirst
  obtain ⟨w, ws, rfl, hset, -⟩ := Run.all_done_cons hfirst
  apply latencySafe_of_all halloc hset (w.pkt.forIdleLatency config 0)
    ((ws.map fun w => { w with pkt := w.pkt.forIdleLatency config 0 }).map
      (Worker.latPtr quietSurroundings 0))
  intro e he
  apply h e
  rw [idleLatency, hw, Run.done_bind, measureIdleLatency, updatePackets_eq _ _ hlen, Run.done_bind]
  exact Run.bind_eq_fault.2 (.inl (Run.bind_eq_fault.2 (.inl he)))

theorem idleLatency_faults_iff (halloc : config.Allocated) (node : Int32) (numThreads : UInt32) :
    (∀ env e, idleLatency env config node numThreads ≠ .fault e) ↔
      numThreads = 0 ∨ config.LatencySafe := by
  constructor
  · intro h
    by_cases hn : numThreads = 0
    · exact .inl hn
    · exact .inr (latencySafe_of_idle halloc hn (h quietSurroundings))
  · rintro h env e
    apply (idleLatency_safe _).not_fault
    intro pkt hpkt
    rcases h with rfl | hsafe
    · cases hpkt
    · obtain ⟨threadId, rfl⟩ := mem_preparePackets hpkt
      exact (hsafe.allocLat halloc env node numThreads threadId).mono fun _ hw => hw.1

end MmMem

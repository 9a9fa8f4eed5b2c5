import MmMem.LatencyFaults
import Mathlib.Data.List.Nodup

namespace MmMem
open Prog
set_option autoImplicit true

inductive Mpol where
  | bind
  | interleave
  deriving Repr, DecidableEq

/-- What the constructor of a region asks of the system, in order. -/
inductive SystemCall where
  | setMempolicy (mode : Mpol) (nodemask : BitVec 64) (maxnode : Nat)
  | mmap (size hugepageSizeLog2 : Nat)
  | alignedAlloc (size : Nat)
  | memset (size : Nat)
  deriving Repr, DecidableEq

def SystemCall.isPolicy : SystemCall → Bool
  | .setMempolicy _ _ _ => true
  | _ => false

/-- `MemType::INTERLEAVE` -/
def memTypeInterleave : Int := 9

def hugepageSizeLog2 (hugepageType : Int) : Nat :=
  if hugepageType = 1 then 21
  else if hugepageType = 2 then 29
  else if hugepageType = 3 then 30
  else if hugepageType = 4 then 34
  else 0

/-- The policy `allocNative_` sets, if it sets one. -/
def nativePolicy (numaMaxNode : Nat) (memType : Int) : List SystemCall :=
  if memTypeNode0.toInt ≤ memType ∧ memType ≤ memTypeInterleave then
    let maxnode := numaMaxNode + 1 + 1
    if memType = memTypeInterleave then
      [.setMempolicy .interleave (1#64 <<< (numaMaxNode + 1) - 1#64) maxnode]
    else [.setMempolicy .bind (1#64 <<< (memType - memTypeNode0.toInt).toNat) maxnode]
  else []

def nativeAllocation (hugepageType : Int) (size : Nat) : SystemCall :=
  if hugepageType > 0 then .mmap size (hugepageSizeLog2 hugepageType) else .alignedAlloc size

/-- `allocNative_`: the calls it makes, and the message it ends the program with if one fails. -/
def allocNative (ok : SystemCall → Bool) (strerror : Text) (numaMaxNode : Nat)
    (memType hugepageType : Int) (size : Nat) : List SystemCall × Option Text :=
  let policy := nativePolicy numaMaxNode memType
  let allocation := nativeAllocation hugepageType size
  if !policy.all ok then
    (policy, some ("NUMA placement failed: ".toList ++ strerror ++
      ". Check allowed memory nodes/container policy; use --no-matrices in the runner to omit placement tests.".toList))
  else if ok allocation then (policy ++ [allocation], none)
  else if hugepageType > 0 then
    (policy ++ [allocation], some ("Huge-page mmap failed: ".toList ++ strerror ++
      ". Check available huge pages and allocation permissions.".toList))
  else (policy ++ [allocation], some ("Memory allocation failed: ".toList ++ strerror))

/-- The calls of the constructor, which leaves a region of no size without memory. -/
def MemRegion.calls (ok : SystemCall → Bool) (strerror : Text) (numaMaxNode : Nat)
    (r : MemRegion) : List SystemCall :=
  if r.size > 0 then
    let (calls, error) := allocNative ok strerror numaMaxNode r.memType r.hugepageType r.size
    if error.isSome then calls else calls ++ [.memset r.size]
  else []

/-- The nodes a mask names: `set_mempolicy` reads the bits below `maxnode - 1`, and past the mask
those in the memory behind it. -/
def nodesOf (behind : Nat → Bool) (nodemask : BitVec 64) (maxnode : Nat) : List Nat :=
  (List.range (maxnode - 1)).filter fun k => if k < 64 then nodemask.getLsbD k else behind k

/-- The memory is bound to the node, and to it alone, before it is allocated and touched. -/
def PlacedOn (behind : Nat → Bool) (j : Nat) (calls : List SystemCall) : Prop :=
  ∃ nodemask maxnode rest, calls = .setMempolicy .bind nodemask maxnode :: rest ∧
    nodesOf behind nodemask maxnode = [j] ∧ ∀ call ∈ rest, call.isPolicy = false

variable {behind : Nat → Bool}

theorem nativeAllocation_isPolicy (hugepageType : Int) (size : Nat) :
    (nativeAllocation hugepageType size).isPolicy = false := by
  rw [nativeAllocation]
  split
  · rfl
  · rfl

theorem MemRegion.calls_policy {r : MemRegion} (ok : SystemCall → Bool) (strerror : Text)
    (numaMaxNode : Nat) (hsize : 0 < r.size) : ∃ rest,
      r.calls ok strerror numaMaxNode = nativePolicy numaMaxNode r.memType ++ rest ∧
        ∀ call ∈ rest, call.isPolicy = false := by
  have halloc := nativeAllocation_isPolicy r.hugepageType r.size
  have hone : ∀ call ∈ [nativeAllocation r.hugepageType r.size], call.isPolicy = false := by
    intro call hcall
    rw [List.mem_singleton.1 hcall]
    exact halloc
  rw [MemRegion.calls, if_pos hsize, allocNative]
  by_cases hpolicy : (nativePolicy numaMaxNode r.memType).all ok = true
  · simp only [hpolicy, Bool.not_true, Bool.false_eq_true, if_false]
    by_cases hok : ok (nativeAllocation r.hugepageType r.size) = true
    · simp only [hok, if_true, Option.isSome_none, Bool.false_eq_true, if_false, List.append_assoc]
      refine ⟨_, rfl, fun call hcall => ?_⟩
      rcases List.mem_append.1 hcall with hcall | hcall
      · exact hone call hcall
      · rw [List.mem_singleton.1 hcall]
        rfl
    · rw [if_neg hok]
      by_cases hhuge : r.hugepageType > 0
      · simp only [hhuge, if_true, Option.isSome_some]
        exact ⟨_, rfl, hone⟩
      · simp only [hhuge, if_false, Option.isSome_some, if_true]
        exact ⟨_, rfl, hone⟩
  · simp only [hpolicy, Bool.not_false, if_true, Option.isSome_some]
    exact ⟨[], (List.append_nil _).symm, nofun⟩

theorem mem_nodesOf : k ∈ nodesOf behind nodemask (n + 1) ↔
    k < n ∧ (if k < 64 then nodemask.getLsbD k else behind k) = true := by
  rw [nodesOf, List.mem_filter, List.mem_range, Nat.add_sub_cancel]

theorem getLsbD_one_shiftLeft (hj : j < 64) (k : Nat) :
    (1#64 <<< j).getLsbD k = decide (k = j) := by
  rw [← BitVec.twoPow_eq, BitVec.getLsbD_twoPow]
  simp only [hj, decide_true, Bool.true_and, eq_comm]

/-- The mask of one node names it alone, unless the memory behind the mask names others. -/
theorem nodesOf_one_shiftLeft (hj : j < 64) (hn : j < n) :
    nodesOf behind (1#64 <<< j) (n + 1) = [j] ↔ ∀ k, 64 ≤ k → k < n → behind k = false := by
  constructor
  · intro h k hk hlt
    by_contra hbehind
    rw [Bool.not_eq_false] at hbehind
    have hmem : k ∈ nodesOf behind (1#64 <<< j) (n + 1) := by
      rw [mem_nodesOf, if_neg (by omega)]
      exact ⟨hlt, hbehind⟩
    rw [h, List.mem_singleton] at hmem
    omega
  · intro h
    have hfilter : nodesOf behind (1#64 <<< j) (n + 1) = (List.range n).filter (· == j) := by
      rw [nodesOf, Nat.add_sub_cancel]
      apply List.filter_congr
      intro k hk
      have hlt := List.mem_range.1 hk
      by_cases h64 : k < 64
      · rw [if_pos h64, getLsbD_one_shiftLeft hj]
        rfl
      · rw [if_neg h64, h k (by omega) hlt, eq_comm, beq_eq_false_iff_ne]
        omega
    rw [hfilter, List.filter_beq, List.count_eq_one_of_mem List.nodup_range (List.mem_range.2 hn)]
    rfl

theorem nativePolicy_bind (numaMaxNode : Nat) (hk : k ≤ 7) :
    nativePolicy numaMaxNode (k + 1 : Nat) =
      [.setMempolicy .bind (1#64 <<< k) (numaMaxNode + 1 + 1)] := by
  have hnode : memTypeNode0.toInt = 1 := rfl
  have hlast : memTypeInterleave = 9 := rfl
  have htoNat : (((k + 1 : Nat) : Int) - 1).toNat = k := by omega
  rw [nativePolicy, hnode, hlast, if_pos (by omega)]
  simp only [htoNat]
  rw [if_neg (by omega)]

theorem nativePolicy_cases (numaMaxNode : Nat) (memType : Int) :
    (∃ k ≤ 7, memType = (k + 1 : Nat)) ∨
      (∃ nodemask maxnode, nativePolicy numaMaxNode memType =
        [.setMempolicy .interleave nodemask maxnode]) ∨ nativePolicy numaMaxNode memType = [] := by
  have hnode : memTypeNode0.toInt = 1 := rfl
  have hlast : memTypeInterleave = 9 := rfl
  by_cases hrange : 1 ≤ memType ∧ memType ≤ 9
  · by_cases h9 : memType = 9
    · refine .inr (.inl ⟨1#64 <<< (numaMaxNode + 1) - 1#64, numaMaxNode + 1 + 1, ?_⟩)
      rw [nativePolicy, hnode, hlast, if_pos hrange]
      exact if_pos h9
    · exact .inl ⟨(memType - 1).toNat, by omega, by omega⟩
  · refine .inr (.inr ?_)
    rw [nativePolicy, hnode, hlast, if_neg hrange]

/-- The type of a region on node `j`, which is a node only up to 7. -/
theorem memType_node (hj : j ≤ 7) : (memTypeNode0 + Int32.ofNat j).toInt = (j + 1 : Nat) := by
  have hall : ∀ j < 8, (memTypeNode0 + Int32.ofNat j).toInt = (j + 1 : Nat) := by decide
  exact hall j (Nat.lt_succ_of_le hj)

theorem not_placedOn_of_nil (hrest : ∀ call ∈ rest, call.isPolicy = false) :
    ¬ PlacedOn behind j rest := by
  rintro ⟨nodemask, maxnode, later, rfl, -⟩
  have hpolicy := hrest _ List.mem_cons_self
  cases hpolicy

/-- A region on node `j` is placed on it exactly if `j` is one of the nodes `MemType` names, and
nothing behind the mask is taken for a node. -/
theorem MemRegion.placedOn_iff {r : MemRegion} (ok : SystemCall → Bool) (strerror : Text)
    (hsize : 0 < r.size) (hj : j ≤ numaMaxNode)
    (htype : r.memType = (memTypeNode0 + Int32.ofNat j).toInt) :
    PlacedOn behind j (r.calls ok strerror numaMaxNode) ↔
      j ≤ 7 ∧ ∀ k, 64 ≤ k → k ≤ numaMaxNode → behind k = false := by
  obtain ⟨rest, hcalls, hrest⟩ := MemRegion.calls_policy ok strerror numaMaxNode hsize
  rw [hcalls]
  constructor
  · intro h
    rcases nativePolicy_cases numaMaxNode r.memType with
      ⟨k, hk, hmem⟩ | ⟨nodemask, maxnode, hpolicy⟩ | hpolicy
    · rw [hmem, nativePolicy_bind numaMaxNode hk] at h
      obtain ⟨nodemask, maxnode, later, he, hnodes, -⟩ := h
      cases he
      by_cases hlt : k < numaMaxNode + 1
      · have hkmem : k ∈ nodesOf behind (1#64 <<< k) (numaMaxNode + 1 + 1) := by
          rw [mem_nodesOf, if_pos (by omega), getLsbD_one_shiftLeft (by omega)]
          exact ⟨hlt, decide_eq_true rfl⟩
        rw [hnodes, List.mem_singleton] at hkmem
        subst hkmem
        have hbehind := (nodesOf_one_shiftLeft (by omega) hlt).1 hnodes
        exact ⟨hk, fun i hi hle => hbehind i hi (Nat.lt_succ_of_le hle)⟩
      · exact ⟨by omega, fun i hi hle => by omega⟩
    · rw [hpolicy] at h
      obtain ⟨_, _, _, he, -⟩ := h
      cases he
    · rw [hpolicy] at h
      exact absurd h (not_placedOn_of_nil hrest)
  · rintro ⟨h7, hbehind⟩
    rw [htype, memType_node h7, nativePolicy_bind numaMaxNode h7]
    refine ⟨_, _, rest, rfl, ?_, hrest⟩
    exact (nodesOf_one_shiftLeft (by omega) (by omega)).2
      fun k hk hlt => hbehind k hk (Nat.le_of_lt_succ hlt)

/-- The regions the workers of a matrix allocate for their packets. -/
inductive RegionOf (pkt : MemLatBwThreadPacket) : MemRegion → Prop where
  | latency (h : MemRegion.new (pkt.regionSizeKb * 1024).toNat (pkt.regionSizeKb * 1024).toNat
      (pkt.chunkSizeKb * 1024).toNat pkt.strideSizeB.toNat pkt.memType.toInt
      pkt.useHugepage.toInt32.toInt = .done r) : RegionOf pkt r
  | bandwidth (h : memRegionAllocBw pkt = .done r) : RegionOf pkt r

theorem RegionOf.of_alloc {pkt : MemLatBwThreadPacket}
    (h : memRegionAllocLat rand fuel pkt = .done (r, m)) : RegionOf pkt r := by
  obtain ⟨r', hnew, h⟩ := Run.bind_eq_done.1 h
  obtain ⟨m', -, h⟩ := Run.bind_eq_done.1 h
  cases h
  exact .latency hnew

theorem RegionOf.memType {pkt : MemLatBwThreadPacket} (h : RegionOf pkt r) :
    r.memType = pkt.memType.toInt := by
  cases h with
  | latency h =>
    rw [MemRegion.new_done h]
    rfl
  | bandwidth h =>
    rw [MemRegion.new_done h]
    rfl

theorem matrixRows_node {numa : NumaConfig} (hrow : row ∈ matrixRows numa minMem)
    (hj : j ∈ row.2) : j < numa.numNumaNodes := by
  obtain ⟨i, -, rfl⟩ := List.mem_map.1 hrow
  exact List.mem_range.1 (List.mem_filter.1 hj).1

/-- A measurement of the matrices is placed on the memory node of its column exactly if that is
one of the eight nodes `MemType` names. -/
theorem matrix_memory_placed_iff (h : NumaMachine) (minMem : Int) (row : Nat × List Nat) (j : Nat)
    (config : Configuration) (numThreads threadId : UInt32) (r : MemRegion)
    (ok : SystemCall → Bool) (strerror : Text) (behind : Nat → Bool)
    (hrow : row ∈ matrixRows (.new h) minMem) (hj : j ∈ row.2)
    (hregion : RegionOf (prepareMemLatBwThreadPacket config (.ofNat j) numThreads threadId) r)
    (hsize : 0 < r.size) :
    PlacedOn behind j (r.calls ok strerror h.maxNode) ↔
      j ≤ 7 ∧ ∀ k, 64 ≤ k → k ≤ h.maxNode → behind k = false :=
  MemRegion.placedOn_iff ok strerror hsize (Nat.le_of_lt_succ (matrixRows_node hrow hj))
    hregion.memType

/-- Nine nodes of 4 GiB, with a cpu on each. -/
def nineNodes : NumaMachine where
  maxNode := 8
  hardwareConcurrency := 9
  possibleCpus := 9
  allowed _ := true
  nodeSize _ := 4 <<< 30
  nodeCpus node := some fun cpu => cpu = node

theorem matrix_memory_placed_iff_last :
    let config := Configuration.byDefault .bandwidth (.new nineNodes)
    ∃ r, memRegionAllocBw (prepareMemLatBwThreadPacket config (.ofNat 7) 1 0) = .done r ∧
      PlacedOn (fun _ => true) 7 (r.calls (fun _ => true) [] 8) := by
  intro config
  obtain ⟨r, hr⟩ := Run.exists_done (x := memRegionAllocBw
    (prepareMemLatBwThreadPacket config (.ofNat 7) 1 0)) (by decide +kernel)
  have hsize : r.size = 134217728 := by
    rw [MemRegion.new_done hr]
    decide +kernel
  refine ⟨r, hr, ?_⟩
  apply (matrix_memory_placed_iff nineNodes (2 <<< 30) (0, List.range 9) 7 config 1 0 r
    (fun _ => true) [] (fun _ => true) (by decide +kernel) (by decide +kernel) (.bandwidth hr)
    (by omega)).2
  refine ⟨by decide, fun k hk hle => ?_⟩
  change k ≤ 8 at hle
  omega

/-- The ninth node is the number of `INTERLEAVE`. -/
theorem ninth_node_interleaved :
    let config := Configuration.byDefault .bandwidth (.new nineNodes)
    (0, List.range 9) ∈ matrixRows (.new nineNodes) (2 <<< 30) ∧
      ∃ r, memRegionAllocBw (prepareMemLatBwThreadPacket config (.ofNat 8) 1 0) = .done r ∧
        r.calls (fun _ => true) [] 8 =
          [.setMempolicy .interleave 511#64 10, .alignedAlloc 134217728, .memset 134217728] ∧
        ¬ PlacedOn (fun _ => false) 8 (r.calls (fun _ => true) [] 8) := by
  intro config
  obtain ⟨r, hr⟩ := Run.exists_done (x := memRegionAllocBw
    (prepareMemLatBwThreadPacket config (.ofNat 8) 1 0)) (by decide +kernel)
  have hcalls : r.calls (fun _ => true) [] 8 =
      [.setMempolicy .interleave 511#64 10, .alignedAlloc 134217728, .memset 134217728] := by
    rw [MemRegion.new_done hr]
    decide +kernel
  refine ⟨by decide +kernel, r, hr, hcalls, ?_⟩
  rw [hcalls]
  rintro ⟨_, _, _, he, -⟩
  cases he

end MmMem

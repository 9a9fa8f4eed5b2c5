import MmMem.HugePages
import Mathlib.Data.List.MinMax
import Mathlib.Data.List.Nodup

namespace MmMem
open Prog
set_option autoImplicit true

/-- The node is known to have at least 1 GiB. -/
def NumaNode.Eligible (node : NumaNode) (kib : Nat) : Prop :=
  node.memTotal = some kib ∧ 1024 ^ 2 ≤ kib

/-- A page size of at most 1 GiB that every eligible node offers, there being one. -/
def Offered (nodes : List NumaNode) (size : Nat) : Prop :=
  (size = 2048 ∨ size = 524288 ∨ size = 1048576) ∧
    (∃ node ∈ nodes, ∃ kib, node.Eligible kib) ∧
    ∀ node ∈ nodes, ∀ kib, node.Eligible kib → size ∈ node.hugePageSizes

/-- No two nodes have the same id. -/
def DistinctIds (nodes : List NumaNode) : Prop := (nodes.map (·.nid)).Nodup

theorem mem_getMemInfo {nodes : List NumaNode} :
    (nid, kib) ∈ getMemInfo nodes ↔ ∃ node ∈ nodes, node.nid = nid ∧ node.memTotal = some kib := by
  rw [getMemInfo, List.mem_filterMap]
  apply exists_congr
  intro node
  apply and_congr_right
  intro _
  rw [Option.map_eq_some_iff]
  constructor
  · rintro ⟨x, hx, he⟩
    cases he
    exact ⟨rfl, hx⟩
  · rintro ⟨rfl, h⟩
    exact ⟨kib, h, rfl⟩

theorem getMemInfo_keys {nodes : List NumaNode} (h : DistinctIds nodes) :
    ((getMemInfo nodes).map Prod.fst).Nodup := by
  have hsub : ((getMemInfo nodes).map Prod.fst).Sublist (nodes.map (·.nid)) := by
    rw [getMemInfo, List.map_filterMap]
    induction nodes with
    | nil => exact List.Sublist.slnil
    | cons node nodes ih =>
      have htail := ih (List.nodup_cons.1 h).2
      rw [List.map_cons, List.filterMap_cons]
      cases node.memTotal with
      | none => exact htail.cons _
      | some kib => exact htail.cons_cons _
  exact List.Nodup.sublist hsub h

theorem mem_hugePagePaths {nodes : List NumaNode} :
    ((nid, size), path) ∈ hugePagePaths nodes ↔ path = .nrHugepages nid size ∧
      ∃ node ∈ nodes, node.nid = nid ∧ size ∈ node.hugePageSizes := by
  simp only [hugePagePaths, List.mem_flatMap, List.mem_map, Prod.mk.injEq]
  constructor
  · rintro ⟨node, hnode, s, hs, ⟨rfl, rfl⟩, rfl⟩
    exact ⟨rfl, node, hnode, rfl, hs⟩
  · rintro ⟨rfl, node, hnode, rfl, hs⟩
    exact ⟨node, hnode, size, hs, ⟨rfl, rfl⟩, rfl⟩

theorem hugePagePaths_isSome {nodes : List NumaNode} :
    ((hugePagePaths nodes).lookup (nid, size)).isSome = true ↔
      ∃ node ∈ nodes, node.nid = nid ∧ size ∈ node.hugePageSizes := by
  rw [List.lookup_isSome_iff]
  constructor
  · rintro ⟨⟨key, path⟩, hmem, hkey⟩
    obtain rfl := eq_of_beq hkey
    exact (mem_hugePagePaths.1 hmem).2
  · intro h
    exact ⟨_, mem_hugePagePaths.2 ⟨rfl, h⟩, BEq.rfl⟩

theorem foldr_max_mem (l : List Nat) : l.foldr max 0 = 0 ∨ l.foldr max 0 ∈ l := by
  induction l with
  | nil => exact .inl rfl
  | cons a l ih =>
    rw [List.foldr_cons]
    rcases Nat.le_total a (l.foldr max 0) with h | h
    · rw [Nat.max_eq_right h]
      exact ih.imp_right (List.mem_cons_of_mem a)
    · rw [Nat.max_eq_left h]
      exact .inr List.mem_cons_self

/-- The sizes `pick_huge_page_size` chooses from. -/
def candidateSizes (nodes : List NumaNode) : List Nat :=
  let eligible := ((getMemInfo nodes).filter fun entry => 1024 ^ 2 ≤ entry.2).map Prod.fst
  (hugePageOptions.map Prod.fst).filter fun size =>
    size ≤ 1024 ^ 2 && !eligible.isEmpty &&
      eligible.all fun nid => ((hugePagePaths nodes).lookup (nid, size)).isSome

theorem pickHugePageSize_eq (nodes : List NumaNode) :
    pickHugePageSize nodes (getMemInfo nodes) = (candidateSizes nodes).foldr max 0 := rfl

theorem mem_eligible {nodes : List NumaNode} :
    nid ∈ ((getMemInfo nodes).filter fun entry => 1024 ^ 2 ≤ entry.2).map Prod.fst ↔
      ∃ node ∈ nodes, node.nid = nid ∧ ∃ kib, node.Eligible kib := by
  rw [List.mem_map]
  constructor
  · rintro ⟨⟨nid, kib⟩, hmem, rfl⟩
    obtain ⟨hentry, hkib⟩ := List.mem_filter.1 hmem
    obtain ⟨node, hnode, hnid, htotal⟩ := mem_getMemInfo.1 hentry
    exact ⟨node, hnode, hnid, kib, htotal, of_decide_eq_true hkib⟩
  · rintro ⟨node, hnode, rfl, kib, htotal, hkib⟩
    refine ⟨(node.nid, kib), List.mem_filter.2 ⟨?_, decide_eq_true hkib⟩, rfl⟩
    exact mem_getMemInfo.2 ⟨node, hnode, rfl, htotal⟩

theorem mem_candidateSizes {nodes : List NumaNode} (h : DistinctIds nodes) :
    size ∈ candidateSizes nodes ↔ Offered nodes size := by
  rw [candidateSizes, List.mem_filter]
  simp only [Bool.and_eq_true, decide_eq_true_eq, Bool.not_eq_true', List.all_eq_true,
    mem_eligible, hugePagePaths_isSome]
  constructor
  · rintro ⟨hsize, ⟨hle, hsome⟩, hall⟩
    refine ⟨?_, ?_, ?_⟩
    · simp only [hugePageOptions, List.map_cons, List.map_nil, List.mem_cons, List.not_mem_nil,
        or_false] at hsize
      omega
    · obtain ⟨nid, hnid⟩ := List.exists_mem_of_ne_nil _ (List.isEmpty_eq_false_iff.1 hsome)
      obtain ⟨node, hnode, -, heligible⟩ := mem_eligible.1 hnid
      exact ⟨node, hnode, heligible⟩
    · intro node hnode kib hkib
      obtain ⟨node', hnode', hnid, hs⟩ := hall node.nid ⟨node, hnode, rfl, kib, hkib⟩
      rwa [← List.inj_on_of_nodup_map h hnode' hnode hnid]
  · rintro ⟨hsize, ⟨node, hnode, heligible⟩, hall⟩
    refine ⟨?_, ⟨?_, ?_⟩, ?_⟩
    · rcases hsize with rfl | rfl | rfl <;> decide
    · rcases hsize with rfl | rfl | rfl <;> decide
    · rw [List.isEmpty_eq_false_iff]
      exact List.ne_nil_of_mem (mem_eligible.2 ⟨node, hnode, rfl, heligible⟩)
    · rintro nid ⟨node, hnode, rfl, kib, hkib⟩
      exact ⟨node, hnode, rfl, hall node hnode kib hkib⟩

theorem Offered.pos (h : Offered nodes s) : 0 < s := by
  rcases h.1 with rfl | rfl | rfl <;> decide

theorem pickHugePageSize_spec {nodes : List NumaNode} (h : DistinctIds nodes) :
    let size := pickHugePageSize nodes (getMemInfo nodes)
    (size = 0 ∧ ¬ ∃ s, Offered nodes s) ∨
      (size ≠ 0 ∧ Offered nodes size ∧ ∀ s, Offered nodes s → s ≤ size) := by
  have hle : ∀ s, Offered nodes s → s ≤ pickHugePageSize nodes (getMemInfo nodes) :=
    fun s hs => List.le_max_of_le' 0 ((mem_candidateSizes h).2 hs) (Nat.le_refl s)
  rcases foldr_max_mem (candidateSizes nodes) with hzero | hmem
  · refine .inl ⟨hzero, fun ⟨s, hs⟩ => ?_⟩
    exact absurd (hzero ▸ hle s hs) (Nat.not_le_of_lt hs.pos)
  · have hoffered := (mem_candidateSizes h).1 hmem
    exact .inr ⟨Nat.ne_of_gt hoffered.pos, hoffered, hle⟩

variable {nodes : List NumaNode}

theorem eligible_lookup (hsize : pickHugePageSize nodes (getMemInfo nodes) ≠ 0)
    {entry : Nat × Nat} (hentry : entry ∈ getMemInfo nodes) (hkib : ¬ entry.2 < 1024 ^ 2) :
    (hugePagePaths nodes).lookup (entry.1, pickHugePageSize nodes (getMemInfo nodes)) ≠ none := by
  have hmem := (foldr_max_mem (candidateSizes nodes)).resolve_left hsize
  rw [← pickHugePageSize_eq, candidateSizes, List.mem_filter] at hmem
  have hall := (Bool.and_eq_true_iff.1 hmem.2).2
  rw [← Option.isSome_iff_ne_none]
  refine List.all_eq_true.1 hall entry.1 (List.mem_map.2 ⟨entry, ?_, rfl⟩)
  exact List.mem_filter.2 ⟨hentry, decide_eq_true (Nat.le_of_not_lt hkib)⟩

theorem Offered.one_le (h : Offered nodes s) (hkib : 1024 ^ 2 ≤ kib) :
    1 ≤ min (2 * 1024 ^ 2) kib / s := by
  have hle : s ≤ 1024 ^ 2 := by
    rcases h.1 with rfl | rfl | rfl <;> decide
  rw [Nat.one_le_div_iff h.pos]
  exact Nat.le_trans hle (Nat.le_min.2 ⟨by decide, hkib⟩)

end MmMem

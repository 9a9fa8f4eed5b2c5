import MmMem.KernelSettings

namespace MmMem
open Prog
set_option autoImplicit true

/-- The kernel files the scripts write. -/
inductive HostPath where
  | numaBalancing
  | nrHugepages (nid size : Nat)
  | dropCaches
  | compactMemory
  deriving Repr, DecidableEq

/-- A node directory of sysfs: `MemTotal` where it is readable, and the huge-page directories. -/
structure NumaNode where
  nid : Nat
  memTotal : Option Nat
  hugePageSizes : List Nat
  deriving Repr, DecidableEq

/-- `HUGE_PAGE_OPTIONS`: the page sizes in KiB with the values of the `-H` option. -/
def hugePageOptions : List (Nat × Nat) := [(2048, 1), (524288, 2), (1048576, 3), (16777216, 4)]

/-- `get_mem_info`: the node ids with readable memory sizes in KiB. -/
def getMemInfo (nodes : List NumaNode) : List (Nat × Nat) :=
  nodes.filterMap fun node => node.memTotal.map fun kib => (node.nid, kib)

/-- `huge_page_paths`: the keys of the dictionary with their paths. -/
def hugePagePaths (nodes : List NumaNode) : List ((Nat × Nat) × HostPath) :=
  nodes.flatMap fun node => node.hugePageSizes.map fun size =>
    ((node.nid, size), .nrHugepages node.nid size)

def pickHugePageSize (nodes : List NumaNode) (memory : List (Nat × Nat)) : Nat :=
  let eligible := (memory.filter fun entry => 1024 ^ 2 ≤ entry.2).map Prod.fst
  let paths := hugePagePaths nodes
  let sizes := (hugePageOptions.map Prod.fst).filter fun size =>
    size ≤ 1024 ^ 2 && !eligible.isEmpty &&
      eligible.all fun nid => (paths.lookup (nid, size)).isSome
  sizes.foldr max 0

/-- One trip of the loop over the nodes' memory. -/
def setupNode (env : Env HostPath) (t : Transaction) (nodes : List NumaNode) (size : Nat)
    (entry : Nat × Nat) : Program HostPath Unit := do
  boundary env
  if entry.2 < 1024 ^ 2 then
    return
  else
    let targetKib := min (2 * 1024 ^ 2) entry.2
    let count := targetKib / size
    match (hugePagePaths nodes).lookup (entry.1, size) with
    | none => Script.raise .keyError
    | some path =>
      let current ← readInt env path
      KernelSettings.set env t path (max current count)

def setupHugePages (env : Env HostPath) (t : Transaction) (nodes : List NumaNode)
    (dropCaches compact : Bool) : Program HostPath Nat := do
  boundary env
  let memory := getMemInfo nodes
  let size := pickHugePageSize nodes memory
  if size = 0 then
    Script.raise (.error .runtimeError
      "No supported huge-page size is available on all eligible NUMA nodes")
  else
    Script.whenever dropCaches (KernelSettings.write env t .dropCaches 1)
    Script.whenever compact (KernelSettings.write env t .compactMemory 1)
    Script.forEach memory (setupNode env t nodes size)
    return size

end MmMem

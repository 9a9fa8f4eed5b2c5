import Mathlib.Algebra.Group.Nat.Defs
import Mathlib.Data.List.Basic

namespace MmMem
set_option autoImplicit true

/-- What libnuma and the standard library report about the machine. -/
structure NumaMachine where
  maxNode : Nat
  hardwareConcurrency : Nat
  possibleCpus : Nat
  /-- `numa_all_cpus_ptr` -/
  allowed : Nat → Bool
  /-- `numa_node_size64`, negative for a node that is missing -/
  nodeSize : Nat → Int
  /-- `numa_node_to_cpus`, where the query succeeds -/
  nodeCpus : Nat → Option (Nat → Bool)

/-- The maps have the nodes below `numNumaNodes` for keys. -/
structure NumaConfig where
  numNumaNodes : Nat
  numCpus : Nat
  allAllowedCpus : List Nat
  nodeToMem : Nat → Int
  nodeToCpus : Nat → List Nat
  nodeToAllowedCpus : Nat → List Nat

def NumaMachine.cpusOfNode (h : NumaMachine) (node : Nat) : List Nat :=
  match h.nodeCpus node with
  | none => []
  | some mask => (List.range h.possibleCpus).filter mask

/-- The constructor of `NumaConfig`. -/
def NumaConfig.new (h : NumaMachine) : NumaConfig where
  numNumaNodes := h.maxNode + 1
  numCpus := h.hardwareConcurrency
  allAllowedCpus := (List.range h.possibleCpus).filter h.allowed
  nodeToMem := h.nodeSize
  nodeToCpus := h.cpusOfNode
  nodeToAllowedCpus node := (h.cpusOfNode node).filter h.allowed

/-- The rows `setup_and_run` of a matrix makes, each with the memory nodes it measures. -/
def matrixRows (numa : NumaConfig) (minMem : Int) : List (Nat × List Nat) :=
  let nodes := List.range numa.numNumaNodes
  (nodes.filter fun i => (numa.nodeToAllowedCpus i).length ≠ 0).map fun i =>
    (i, nodes.filter fun j => ¬ numa.nodeToMem j < minMem)

/-- The workers of a cell: no more than the row has cpus. -/
def cellThreads (numa : NumaConfig) (numThreads : UInt32) (i : Nat) : UInt32 :=
  min numThreads (.ofNat (numa.nodeToAllowedCpus i).length)

end MmMem

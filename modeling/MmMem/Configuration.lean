import MmMem.CommandLine
import MmMem.NumaConfig

namespace MmMem
open Prog
set_option autoImplicit true

inductive TestingType where
  | latency
  | bandwidth
  | latencyBandwidth
  | memcpy
  | branchThroughput
  deriving Repr, DecidableEq

/-- The members of `Configuration` that options are bound to. -/
inductive Setting where
  | help
  | targetDurationS
  | numThreads
  | regionSizeKb
  | noBinding
  | verbose
  | branchCase
  | accessPattern
  | chunkSizeKb
  | strideSizeB
  | useHugepage
  | latencyMatrix
  | readWriteMix
  | loadGenDelay
  | bandwidthMatrix
  | fragmentSizeB
  | memcpyMatrix
  deriving Repr, DecidableEq

def uint32 : IntType := ⟨false, 32⟩

def uint64 : IntType := ⟨false, 64⟩

def int32 : IntType := ⟨true, 32⟩

def readWriteMixSweep : Nat := 100

/-- The member initializers. -/
def Setting.initial : Setting → Int
  | .numThreads => 1
  | .regionSizeKb => 128 * 1024
  | .accessPattern => 1
  | .chunkSizeKb => 128
  | .strideSizeB => 64
  | .fragmentSizeB => 4096
  | .targetDurationS => 10
  | _ => 0

def TestingType.defaultNumThreads (t : TestingType) (numa : NumaConfig) : Int :=
  match t with
  | .latency | .branchThroughput => 1
  | _ => numa.allAllowedCpus.length

def TestingType.defaultRegionSizeKb : TestingType → Int
  | .latency => 512 * 1024
  | _ => 128 * 1024

def addGenericOptions (t : TestingType) (numa : NumaConfig) : List (Declaration Setting) :=
  [.flag "help,h".toList .help,
   .value "target_duration,t".toList .targetDurationS uint32 10,
   .value "num_threads,n".toList .numThreads uint32 (t.defaultNumThreads numa)] ++
  (if t = .branchThroughput then []
   else [.value "region_size,b".toList .regionSizeKb uint64 t.defaultRegionSizeKb]) ++
  [.flag "no_binding".toList .noBinding,
   .flag "verbose,v".toList .verbose]

def addLatencyOptions (t : TestingType) : List (Declaration Setting) :=
  [.value "access_pattern,p".toList .accessPattern uint32 1,
   .value "chunk_size,c".toList .chunkSizeKb uint32 (if t = .latencyBandwidth then 64 else 128),
   .value "stride_size,s".toList .strideSizeB uint32 128,
   .value "use_hugepage,H".toList .useHugepage uint32 0] ++
  (if t = .latency then [.flag "latency_matrix".toList .latencyMatrix] else [])

def addBandwidthOptions (t : TestingType) : List (Declaration Setting) :=
  .value "read_write_mix,m".toList .readWriteMix uint32
    (if t = .bandwidth then readWriteMixSweep else 2) ::
  (if t = .latencyBandwidth then [.value "load_gen_delay,d".toList .loadGenDelay int32 0]
   else []) ++
  (if t = .bandwidth then [.flag "bandwidth_matrix".toList .bandwidthMatrix] else [])

def addMemcpyOptions : List (Declaration Setting) :=
  [.value "fragment_size,f".toList .fragmentSizeB uint64 0,
   .flag "memcpy_matrix".toList .memcpyMatrix]

/-- The options the constructor of `Configuration` declares, in its order. -/
def Configuration.options (t : TestingType) (numa : NumaConfig) : List (Declaration Setting) :=
  addGenericOptions t numa ++
  (if t = .branchThroughput then [.value "branch_case".toList .branchCase uint32 0] else []) ++
  (if t = .latency ∨ t = .latencyBandwidth then addLatencyOptions t else []) ++
  (if t = .bandwidth ∨ t = .latencyBandwidth then addBandwidthOptions t else []) ++
  (if t = .memcpy then addMemcpyOptions else [])

/-- The values the programs read once `parse_options` has returned. -/
structure Configuration where
  branchCase : UInt32
  numThreads : UInt32
  regionSizeKb : UInt64
  noBinding : Bool
  verbose : Bool
  accessPattern : UInt32
  chunkSizeKb : UInt32
  strideSizeB : UInt32
  fragmentSizeB : UInt64
  useHugepage : UInt32
  readWriteMix : UInt32
  loadGenDelay : Int32
  targetDurationS : UInt32
  latencyMatrix : Bool
  bandwidthMatrix : Bool
  memcpyMatrix : Bool
  deriving Repr, DecidableEq

def Configuration.ofStore (store : Setting → Int) : Configuration where
  branchCase := .ofInt (store .branchCase)
  numThreads := .ofInt (store .numThreads)
  regionSizeKb := .ofInt (store .regionSizeKb)
  noBinding := store .noBinding != 0
  verbose := store .verbose != 0
  accessPattern := .ofInt (store .accessPattern)
  chunkSizeKb := .ofInt (store .chunkSizeKb)
  strideSizeB := .ofInt (store .strideSizeB)
  fragmentSizeB := .ofInt (store .fragmentSizeB)
  useHugepage := .ofInt (store .useHugepage)
  readWriteMix := .ofInt (store .readWriteMix)
  loadGenDelay := .ofInt (store .loadGenDelay)
  targetDurationS := .ofInt (store .targetDurationS)
  latencyMatrix := store .latencyMatrix != 0
  bandwidthMatrix := store .bandwidthMatrix != 0
  memcpyMatrix := store .memcpyMatrix != 0

/-- Why a program stops before it measures: an error it prints, or its usage message. -/
inductive Refusal where
  | error (message : Text)
  | usage
  deriving Repr, DecidableEq

/-- The huge pages get one chunk that spans the region. -/
def Configuration.autoCorrect (config : Configuration) : Configuration :=
  if config.useHugepage > 0 then { config with chunkSizeKb := config.regionSizeKb.toUInt32 }
  else config

/-- `parse_options`: it returns 0 where the result is a configuration, else 1. -/
def Configuration.parseOptions (t : TestingType) (numa : NumaConfig) (argv : List Text) :
    Run ParseFault (Except Refusal Configuration) :=
  let declarations := Configuration.options t numa
  match parse (declarations.map (·.option)) argv (declare declarations Setting.initial) with
  | .fault (.invalidArgument what) =>
    .done (.error (.error ("Error: ".toList ++ what ++ "\nUse --help for usage.\n".toList)))
  | .fault e => .fault e
  | .running => .running
  | .done store =>
    if store .help ≠ 0 then .done (.error .usage)
    else .done (.ok (Configuration.ofStore store).autoCorrect)

/-- The configuration of a program that is given no option. -/
def Configuration.byDefault (t : TestingType) (numa : NumaConfig) : Configuration :=
  .ofStore (declare (Configuration.options t numa) Setting.initial)

theorem Configuration.parseOptions_none (t : TestingType) (numa : NumaConfig) (name : Text) :
    Configuration.parseOptions t numa [name] = .done (.ok (.byDefault t numa)) := by
  cases t <;> rfl

/-- `cpu_peak_bandwidth` does not sweep the mixes of a matrix. -/
def Configuration.correctReadWriteMix (config : Configuration) : Configuration :=
  if config.bandwidthMatrix ∧ config.readWriteMix.toNat = readWriteMixSweep then
    { config with readWriteMix := 0 }
  else config

/-- The check of `cpu_memcpy` on the configuration it has parsed. -/
def Configuration.checkFragment (config : Configuration) : Except Refusal Configuration :=
  let fragmentSizeB := if config.fragmentSizeB = 0 then config.regionSizeKb * 1024
    else config.fragmentSizeB
  if fragmentSizeB = 0 ∨ fragmentSizeB > config.regionSizeKb * 1024 then
    .error (.error "Error: memcpy fragment size must be positive and fit within the region\n".toList)
  else .ok { config with fragmentSizeB }

end MmMem

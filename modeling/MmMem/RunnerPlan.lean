import MmMem.Runner

namespace MmMem
open Prog
set_option autoImplicit true

/-- A call of `run_benchmark`; the command prefix is for the calls with huge pages. -/
structure Benchmark where
  name : String
  options : List String
  huge : Bool
  deriving Repr, DecidableEq

def hugeOptions (hugeSize : Nat) : List String :=
  ["-p", "2", "-H", toString ((hugePageOptions.lookup hugeSize).getD 0)]

def hugeBenchmarks (name : String) (options : List String) (hugeSize : Nat) : List Benchmark :=
  if hugeSize != 0 then [⟨name, options ++ hugeOptions hugeSize, true⟩] else []

def matrixOptions (matrices : Bool) : List String :=
  if matrices then ["--latency_matrix"] else []

/-- The calls `run_tests` makes, in its order. -/
def testPlan (selected : List Test) (matrices : Bool) (hugeSize : Nat) : List Benchmark :=
  (if selected.contains .idleLatency then
    [⟨"cpu_idle_latency", matrixOptions matrices, false⟩] ++
      hugeBenchmarks "cpu_idle_latency" (matrixOptions matrices) hugeSize
  else []) ++
  (if selected.contains .bandwidth then
    [⟨"cpu_peak_bandwidth", [], false⟩] ++
      ((if matrices then ["0", "1"].map fun mix =>
        ⟨"cpu_peak_bandwidth", ["--bandwidth_matrix", "-m", mix], false⟩ else []) ++
      ([⟨"cpu_memcpy", [], false⟩] ++ [⟨"cpu_memcpy", ["-f", "16384"], false⟩]))
  else []) ++
  (if selected.contains .loadedLatency then
    [⟨"cpu_loaded_latency", [], false⟩] ++ hugeBenchmarks "cpu_loaded_latency" [] hugeSize
  else [])

def Benchmark.command (m : Machine) (args : Args) (privileged : Option (List String))
    (b : Benchmark) : List String :=
  benchmarkCommand m args b.name b.options (if b.huge then privileged else none)

def Benchmark.run (env : Env HostPath) (m : Machine) (args : Args)
    (privileged : Option (List String)) (b : Benchmark) : Program HostPath Unit :=
  runBenchmark env m args b.name b.options (if b.huge then privileged else none)

variable {env : Env HostPath} {m : Machine} {args : Args} {privileged : Option (List String)}

/-- A size the scripts choose has an option. -/
def HugeSize (hugeSize : Nat) : Prop :=
  hugeSize = 0 ∨ (hugePageOptions.lookup hugeSize).isSome = true

theorem hugeBenchmarks_run (env : Env HostPath) (m : Machine) (args : Args)
    (privileged : Option (List String)) (h : HugeSize hugeSize) (name : String)
    (options : List String) :
    (Script.whenever (hugeSize != 0) do
      let huge ← hugePageArguments hugeSize
      runBenchmark env m args name (options ++ huge) privileged) =
    Script.forEach (hugeBenchmarks name options hugeSize)
      (Benchmark.run env m args privileged) := by
  cases hne : hugeSize != 0 with
  | false =>
    rw [hugeBenchmarks, hne]
    rfl
  | true =>
    obtain ⟨option, hoption⟩ := Option.isSome_iff_exists.1 (h.resolve_left (bne_iff_ne.1 hne))
    rw [hugeBenchmarks, hne, if_pos rfl, Script.forEach_singleton, Script.whenever, if_pos rfl,
      Benchmark.run, hugeOptions, hugePageArguments, hoption]
    rfl

/-- `run_tests` makes the calls of its plan one after the other. -/
theorem runTests_plan (h : HugeSize hugeSize) (selected : List Test) (matrices : Bool) :
    runTests env m args selected matrices hugeSize privileged =
      Script.forEach (testPlan selected matrices hugeSize)
        (Benchmark.run env m args privileged) := by
  have hloaded := hugeBenchmarks_run env m args privileged h "cpu_loaded_latency" []
  simp only [List.nil_append] at hloaded
  simp only [runTests, testPlan, Script.forEach_append, ← Script.whenever_forEach,
    Script.forEach_singleton, Script.forEach_map, hugeBenchmarks_run env m args privileged h,
    hloaded, bind_assoc]
  rfl

theorem mem_testPlan {b : Benchmark} : b ∈ testPlan selected matrices hugeSize ↔
    (selected.contains .idleLatency = true ∧
      (b = ⟨"cpu_idle_latency", matrixOptions matrices, false⟩ ∨ hugeSize ≠ 0 ∧
        b = ⟨"cpu_idle_latency", matrixOptions matrices ++ hugeOptions hugeSize, true⟩)) ∨
    (selected.contains .bandwidth = true ∧
      (b = ⟨"cpu_peak_bandwidth", [], false⟩ ∨
        (matrices = true ∧ ∃ mix, (mix = "0" ∨ mix = "1") ∧
          b = ⟨"cpu_peak_bandwidth", ["--bandwidth_matrix", "-m", mix], false⟩) ∨
        b = ⟨"cpu_memcpy", [], false⟩ ∨ b = ⟨"cpu_memcpy", ["-f", "16384"], false⟩)) ∨
    (selected.contains .loadedLatency = true ∧
      (b = ⟨"cpu_loaded_latency", [], false⟩ ∨ hugeSize ≠ 0 ∧
        b = ⟨"cpu_loaded_latency", hugeOptions hugeSize, true⟩)) := by
  simp only [testPlan, hugeBenchmarks, List.mem_append, List.mem_ite_nil_right, List.mem_map,
    List.mem_cons, List.not_mem_nil, or_false, bne_iff_ne, List.nil_append, or_assoc,
    eq_comm (a := b)]

end MmMem

import MmMem.RunnerAccepted
import MmMem.MemPolicy

namespace MmMem
open Prog
set_option autoImplicit true

/-- What `main` does with its configuration before it makes any worker. -/
def TestingType.settle (t : TestingType) (config : Configuration) :
    Except Refusal Configuration :=
  match t with
  | .bandwidth => .ok config.correctReadWriteMix
  | .memcpy => config.checkFragment
  | _ => .ok config

/-- From the arguments of a binary to the configuration it measures with. -/
def TestingType.configuration (t : TestingType) (numa : NumaConfig) (argv : List Text) :
    Run ParseFault (Except Refusal Configuration) :=
  Configuration.parseOptions t numa argv >>= fun parsed => .done (parsed >>= t.settle)

/-- The binary of a benchmark, and the configuration it comes to. -/
def Benchmark.measured (m : Machine) (args : Args) (numa : NumaConfig) (b : Benchmark) :
    Option (TestingType × Run ParseFault (Except Refusal Configuration)) :=
  (testingType b.name).map fun t => (t, t.configuration numa (b.argv m args))

/-- What the caller's own options ask of a binary; idle latency keeps its one thread. -/
def Args.configure (args : Args) (t : TestingType) (config : Configuration) : Configuration :=
  { config with
    targetDurationS := .ofNat args.targetDuration.1
    numThreads :=
      if t = .latency then config.numThreads
      else match args.numThreads with
        | some n => .ofNat n.1
        | none => config.numThreads
    regionSizeKb :=
      match args.regionSize with
      | some n => .ofNat n.1
      | none => config.regionSizeKb }

/-- The region is in huge pages, with all its lines in one random order. -/
def Configuration.onHugePages (config : Configuration) (hugeSize : Nat) : Configuration :=
  { config with
    accessPattern := 2
    useHugepage := .ofNat ((hugePageOptions.lookup hugeSize).getD 0)
    chunkSizeKb := config.regionSizeKb.toUInt32 }

/-- A measurement with the pages there are, and again with huge ones. -/
def withHugePages (t : TestingType) (config : Configuration) (hugeSize : Nat) :
    List (TestingType × Configuration) :=
  (t, config) :: if hugeSize = 0 then [] else [(t, config.onHugePages hugeSize)]

/-- The peak bandwidth, its matrices of reads and of writes, and copies whole and in fragments. -/
def Args.bandwidthMeasurements (args : Args) (numa : NumaConfig) (matrices : Bool) :
    List (TestingType × Configuration) :=
  let peak := args.configure .bandwidth (.byDefault .bandwidth numa)
  let copy := args.configure .memcpy (.byDefault .memcpy numa)
  [(.bandwidth, peak)] ++
    ((if matrices then [0, 1].map fun mix =>
      (.bandwidth, { peak with bandwidthMatrix := true, readWriteMix := mix }) else []) ++
    [(.memcpy, { copy with fragmentSizeB := copy.regionSizeKb * 1024 }),
      (.memcpy, { copy with fragmentSizeB := 16384 })])

/-- The measurements a suite stands for. -/
def Args.measurements (args : Args) (numa : NumaConfig) (matrices : Bool) (hugeSize : Nat) :
    List (TestingType × Configuration) :=
  let base (t : TestingType) := args.configure t (.byDefault t numa)
  (if args.selected.contains .idleLatency then
    withHugePages .latency { base .latency with latencyMatrix := matrices } hugeSize
  else []) ++
  (if args.selected.contains .bandwidth then args.bandwidthMeasurements numa matrices else []) ++
  (if args.selected.contains .loadedLatency then
    withHugePages .latencyBandwidth (base .latencyBandwidth) hugeSize
  else [])

/-- The binary comes to this configuration, whatever else its options are. -/
def settled (e : TestingType × Configuration) :
    Option (TestingType × Run ParseFault (Except Refusal Configuration)) :=
  some (e.1, .done (.ok e.2))

variable {m : Machine} {args : Args} {b : Benchmark} {t : TestingType} {numa : NumaConfig}
  {extra : List (Usage Setting)} {name : String} {options : List String} {huge : Bool}

theorem Benchmark.Reads.parses (h : b.Reads t numa extra) (hF : Forwardable args b.name)
    (m : Machine) : Configuration.parseOptions t numa (b.argv m args) =
      .done (.ok (Configuration.ofStore (b.store t numa args extra)).autoCorrect) := by
  have hall : ∀ u ∈ forwarded args b.name ++ extra, ∃ v, u.option.assign u.text = .ok v := by
    intro u hu
    rcases List.mem_append.1 hu with hu | hu
    · exact (forwarded_converts args b.name).2 hF u hu
    · exact h.converted u hu
  rw [Configuration.parseOptions]
  rcases parse_written (options_table t numa) (options_dash t numa) (h.written m args)
    (declare (Configuration.options t numa) Setting.initial) with ⟨-, hp⟩ | ⟨⟨u, hu, hbad⟩, -⟩
  · rw [hp]
    exact if_neg (not_not.2 (h.store_help args))
  · obtain ⟨v, hv⟩ := hall u hu
    exact absurd hv (hbad v)

theorem testingType_latency (h : testingType name = some t) :
    t = .latency ↔ name = "cpu_idle_latency" := by
  obtain ⟨l₁, l₂, hl, -⟩ := List.lookup_eq_some_iff.1 h
  have hmem : (name, t) ∈ l₁ ++ (name, t) :: l₂ := List.mem_append_right l₁ List.mem_cons_self
  rw [← hl] at hmem
  simp only [List.mem_cons, Prod.mk.injEq, List.not_mem_nil, or_false] at hmem
  rcases hmem with ⟨rfl, rfl⟩ | ⟨rfl, rfl⟩ | ⟨rfl, rfl⟩ | ⟨rfl, rfl⟩
  · exact iff_of_true rfl rfl
  · exact iff_of_false nofun (by decide)
  · exact iff_of_false nofun (by decide)
  · exact iff_of_false nofun (by decide)

theorem assignAll_append (usages usages' : List (Usage Setting)) (store : Setting → Int) :
    assignAll (usages ++ usages') store = assignAll usages' (assignAll usages store) :=
  List.foldl_append

theorem assignAll_cons (u : Usage Setting) (usages : List (Usage Setting)) (store : Setting → Int) :
    assignAll (u :: usages) store =
      assignAll usages (Function.update store u.option.target u.value) := List.foldl_cons ..

/-- The options the runner forwards ask for what its caller asked for. -/
theorem ofStore_forwarded (hname : testingType name = some t) (hF : Forwardable args name)
    (store : Setting → Int) :
    Configuration.ofStore (assignAll (forwarded args name) store) =
      args.configure t (.ofStore store) := by
  obtain ⟨hduration, hthreads, hregion⟩ := hF
  have hlast : ∀ s, Configuration.ofStore (assignAll
      (match args.regionSize with
        | some n => [regionUsage n.1]
        | none => []) s) =
      { Configuration.ofStore s with
        regionSizeKb := match args.regionSize with
          | some n => .ofNat n.1
          | none => (Configuration.ofStore s).regionSizeKb } := by
    intro s
    cases hr : args.regionSize with
    | none => rfl
    | some n =>
      have hvalue : (regionUsage n.1).value = n.1 := Usage.value_short rfl (by decide) (hregion n hr)
      dsimp only
      rw [assignAll_cons, hvalue, ← uint64_ofInt]
      rfl
  have hvalue : (durationUsage args.targetDuration.1).value = args.targetDuration.1 :=
    Usage.value_short rfl (by decide) hduration
  rw [forwarded, assignAll_append, assignAll_append, assignAll_cons, hvalue, Args.configure,
    ← uint32_ofInt]
  refine (hlast _).trans ?_
  cases hn : args.numThreads with
  | none =>
    dsimp only
    rw [ite_self]
    rfl
  | some n =>
    dsimp only
    by_cases hidle : name = "cpu_idle_latency"
    · rw [if_neg (not_not.2 hidle), if_pos ((testingType_latency hname).2 hidle)]
      rfl
    · have hvalue : (threadsUsage n.1).value = n.1 :=
        Usage.value_short rfl (by decide) (hthreads hidle n hn)
      rw [if_pos hidle, if_neg (mt (testingType_latency hname).1 hidle), assignAll_cons, hvalue,
        ← uint32_ofInt]
      rfl

theorem Benchmark.Reads.measured (h : b.Reads t numa extra) (hF : Forwardable args b.name)
    (m : Machine) : b.measured m args numa = some (t, .done (t.settle
      (Configuration.ofStore (b.store t numa args extra)).autoCorrect)) := by
  rw [Benchmark.measured, h.binary, Option.map_some, TestingType.configuration, h.parses hF m]
  rfl

theorem configure_useHugepage (args : Args) (t : TestingType) (numa : NumaConfig) :
    (args.configure t (.byDefault t numa)).useHugepage = 0 := by
  cases t <;> rfl

theorem Configuration.autoCorrect_of {config : Configuration} (h : config.useHugepage = 0) :
    config.autoCorrect = config := by
  rw [Configuration.autoCorrect, h]
  exact if_neg (UInt32.lt_irrefl 0)

/-- Without huge pages nothing is corrected, and the binary may yet settle what it was given. -/
theorem Benchmark.Reads.settles (h : b.Reads t numa extra) (hF : Forwardable args b.name)
    (given : Configuration) {config : Configuration} (hpages : given.useHugepage = 0)
    (hgiven : Configuration.ofStore (b.store t numa args extra) = given)
    (hconfig : t.settle given = .ok config) (m : Machine) :
    b.measured m args numa = settled (t, config) := by
  rw [h.measured hF m, hgiven, Configuration.autoCorrect_of hpages, hconfig]
  rfl

theorem ofStore_store (hname : testingType b.name = some t) (hF : Forwardable args b.name)
    (numa : NumaConfig) : Configuration.ofStore (b.store t numa args []) =
      args.configure t (.byDefault t numa) := by
  rw [Benchmark.store, List.append_nil, ofStore_forwarded hname hF]
  rfl

theorem store_snoc (u : Usage Setting) :
    b.store t numa args (extra ++ [u]) =
      Function.update (b.store t numa args extra) u.option.target u.value := by
  rw [Benchmark.store, ← List.append_assoc, assignAll_append]
  rfl

theorem hugeOption_pages (hne : hugeSize ≠ 0) (h : HugeSize hugeSize) :
    let option : UInt32 := .ofNat ((hugePageOptions.lookup hugeSize).getD 0)
    option > 0 ∧ 2 ^ hugepageSizeLog2 option.toInt32.toInt = hugeSize * 1024 := by
  obtain ⟨option, hoption⟩ := Option.isSome_iff_exists.1 (h.resolve_left hne)
  obtain ⟨l₁, l₂, hl, -⟩ := List.lookup_eq_some_iff.1 hoption
  have hmem : (hugeSize, option) ∈ hugePageOptions :=
    hl ▸ List.mem_append_right l₁ List.mem_cons_self
  rw [hoption, Option.getD_some]
  simp only [hugePageOptions, List.mem_cons, Prod.mk.injEq, List.not_mem_nil, or_false] at hmem
  rcases hmem with ⟨rfl, rfl⟩ | ⟨rfl, rfl⟩ | ⟨rfl, rfl⟩ | ⟨rfl, rfl⟩
  all_goals decide

theorem huge_autoCorrect (hne : hugeSize ≠ 0) (h : HugeSize hugeSize) :
    (Configuration.ofStore (b.store t numa args (extra ++ [patternUsage,
      hugepageUsage ((hugePageOptions.lookup hugeSize).getD 0)]))).autoCorrect =
      (Configuration.ofStore (b.store t numa args extra)).onHugePages hugeSize := by
  have hvalue : (hugepageUsage ((hugePageOptions.lookup hugeSize).getD 0)).value =
      (hugePageOptions.lookup hugeSize).getD 0 :=
    Usage.value_short rfl (by decide) (hugeOption_lt hugeSize)
  have hstore : Configuration.ofStore (b.store t numa args (extra ++ [patternUsage,
      hugepageUsage ((hugePageOptions.lookup hugeSize).getD 0)])) =
      { Configuration.ofStore (b.store t numa args extra) with
        accessPattern := 2
        useHugepage := .ofNat ((hugePageOptions.lookup hugeSize).getD 0) } := by
    rw [List.append_cons, store_snoc, store_snoc, hvalue, ← uint32_ofInt]
    rfl
  rw [hstore]
  exact if_pos (hugeOption_pages hne h).1

/-- The calls with and without huge pages measure the same but for the pages. -/
theorem hugePages_measured {config : Configuration}
    (hplain : Benchmark.Reads t numa ⟨name, options, false⟩ extra)
    (hhuge : Benchmark.Reads t numa ⟨name, options ++ hugeOptions hugeSize, true⟩
      (extra ++ [patternUsage, hugepageUsage ((hugePageOptions.lookup hugeSize).getD 0)]))
    (ht : t = .latency ∨ t = .latencyBandwidth) (hF : Forwardable args name)
    (h : HugeSize hugeSize) (hpages : config.useHugepage = 0)
    (hconfig : Configuration.ofStore
      (Benchmark.store t numa args ⟨name, options, false⟩ extra) = config) :
    ([(⟨name, options, false⟩ : Benchmark)] ++ hugeBenchmarks name options hugeSize).map
      (Benchmark.measured m args numa) = (withHugePages t config hugeSize).map settled := by
  have hsettle : ∀ config, t.settle config = .ok config := by
    rcases ht with rfl | rfl
    · exact fun _ => rfl
    · exact fun _ => rfl
  have hfirst := hplain.settles hF config hpages hconfig (hsettle config) m
  rw [List.map_append, List.map_singleton, hfirst, withHugePages, List.map_cons]
  refine congrArg (List.cons _) ?_
  rw [hugeBenchmarks]
  by_cases hne : hugeSize = 0
  · subst hne
    rfl
  · have hsecond := hhuge.measured hF m
    rw [huge_autoCorrect hne h, hsettle] at hsecond
    rw [if_pos (bne_iff_ne.2 hne), if_neg hne, List.map_singleton, List.map_singleton, hsecond,
      ← hconfig]
    rfl

theorem idle_measured (hF : Forwardable args "cpu_idle_latency") (h : HugeSize hugeSize)
    (m : Machine) (numa : NumaConfig) (matrices : Bool) :
    ([(⟨"cpu_idle_latency", matrixOptions matrices, false⟩ : Benchmark)] ++
      hugeBenchmarks "cpu_idle_latency" (matrixOptions matrices) hugeSize).map
        (Benchmark.measured m args numa) =
      (withHugePages .latency { args.configure .latency (.byDefault .latency numa) with
        latencyMatrix := matrices } hugeSize).map settled := by
  have hname : testingType "cpu_idle_latency" = some .latency := rfl
  have hnil : Benchmark.Reads .latency numa ⟨"cpu_idle_latency", [], false⟩ [] := .nil rfl
  have hplain := hnil.withMatrix List.not_mem_nil matrices
  rw [List.append_nil] at hplain
  have hnew : Setting.latencyMatrix ∉ [Setting.accessPattern, .useHugepage] := by decide
  have hhuge := (reads_huge (.inl rfl) hname numa hugeSize true).withMatrix hnew matrices
  have hbase := ofStore_store (b := ⟨"cpu_idle_latency", matrixOptions matrices, false⟩) hname hF numa
  refine hugePages_measured hplain ?_ (.inl rfl) hF h (configure_useHugepage args .latency numa) ?_
  · rw [List.append_nil]
    exact hhuge
  · cases matrices with
    | false => exact hbase
    | true =>
      have hlast : Benchmark.store .latency numa args
          ⟨"cpu_idle_latency", matrixOptions true, false⟩ ([] ++ [latencyMatrixUsage]) = _ :=
        store_snoc latencyMatrixUsage
      rw [← hbase]
      exact congrArg Configuration.ofStore hlast

theorem loaded_measured (hF : Forwardable args "cpu_loaded_latency") (h : HugeSize hugeSize)
    (m : Machine) (numa : NumaConfig) :
    ([(⟨"cpu_loaded_latency", [], false⟩ : Benchmark)] ++
      hugeBenchmarks "cpu_loaded_latency" [] hugeSize).map (Benchmark.measured m args numa) =
      (withHugePages .latencyBandwidth
        (args.configure .latencyBandwidth (.byDefault .latencyBandwidth numa)) hugeSize).map
          settled :=
  hugePages_measured (.nil rfl) (reads_huge (.inr rfl) rfl numa hugeSize true) (.inr rfl) hF h
    (configure_useHugepage args .latencyBandwidth numa) (ofStore_store rfl hF numa)

theorem peak_measured (hF : Forwardable args "cpu_peak_bandwidth") (m : Machine)
    (numa : NumaConfig) :
    Benchmark.measured m args numa ⟨"cpu_peak_bandwidth", [], false⟩ =
      settled (.bandwidth, args.configure .bandwidth (.byDefault .bandwidth numa)) := by
  have hnil : Benchmark.Reads .bandwidth numa ⟨"cpu_peak_bandwidth", [], false⟩ [] := .nil rfl
  refine hnil.settles hF _ (configure_useHugepage args .bandwidth numa)
    (ofStore_store rfl hF numa) (congrArg Except.ok ?_) m
  exact if_neg fun h => absurd h.1 nofun

/-- A mix of the matrices is not the one that stands for all mixes. -/
theorem mix_measured {v : Nat} (hF : Forwardable args "cpu_peak_bandwidth")
    (hv : uint32.assign mix.toList = .ok (v : Int)) (ht : mix.toList.take 2 ≠ dashes)
    (hlt : v < 100) (m : Machine) (numa : NumaConfig) :
    Benchmark.measured m args numa
      ⟨"cpu_peak_bandwidth", ["--bandwidth_matrix", "-m", mix], false⟩ =
      settled (.bandwidth, { args.configure .bandwidth (.byDefault .bandwidth numa) with
        bandwidthMatrix := true, readWriteMix := .ofNat v }) := by
  rw [← uint32_ofInt]
  let config : Configuration := { args.configure .bandwidth (.byDefault .bandwidth numa) with
    bandwidthMatrix := true, readWriteMix := .ofInt v }
  have hreads := Benchmark.Reads.withMix hv ht numa false
  have hsweep : ¬ (UInt32.ofInt v).toNat = readWriteMixSweep := by
    rw [uint32_ofInt, UInt32.toNat_ofNat', readWriteMixSweep]
    omega
  refine hreads.settles hF config (configure_useHugepage args .bandwidth numa) ?_
    (congrArg Except.ok ?_) m
  · have hvalue : (mixUsage mix).value = v := Usage.value_of hv
    rw [show [bandwidthMatrixUsage, mixUsage mix] =
      [] ++ [bandwidthMatrixUsage] ++ [mixUsage mix] from rfl, store_snoc, store_snoc, hvalue,
      show config = { args.configure .bandwidth (.byDefault .bandwidth numa) with
        bandwidthMatrix := true, readWriteMix := .ofInt v } from rfl,
      ← ofStore_store (b := ⟨"cpu_peak_bandwidth", ["--bandwidth_matrix", "-m", mix], false⟩) rfl hF]
    rfl
  · exact if_neg fun h => hsweep h.2

theorem Configuration.checkFragment_ok {config : Configuration}
    (h : config.checkFragment.isOk = true) : config.checkFragment = .ok { config with
      fragmentSizeB := if config.fragmentSizeB = 0 then config.regionSizeKb * 1024
        else config.fragmentSizeB } := by
  rw [Configuration.checkFragment] at h ⊢
  generalize (if config.fragmentSizeB = 0 then config.regionSizeKb * 1024
    else config.fragmentSizeB) = fragmentSizeB at h ⊢
  split at h
  · cases h
  · next hfits => exact if_neg hfits

theorem whole_measured (hF : Forwardable args "cpu_memcpy") (numa : NumaConfig)
    (hok : (Configuration.ofStore (Benchmark.store .memcpy numa args
      ⟨"cpu_memcpy", [], false⟩ [])).autoCorrect.checkFragment.isOk = true) (m : Machine) :
    let copy := args.configure .memcpy (.byDefault .memcpy numa)
    Benchmark.measured m args numa ⟨"cpu_memcpy", [], false⟩ =
      settled (.memcpy, { copy with fragmentSizeB := copy.regionSizeKb * 1024 }) := by
  intro copy
  have hpages : copy.useHugepage = 0 := configure_useHugepage args .memcpy numa
  have hnil : Benchmark.Reads .memcpy numa ⟨"cpu_memcpy", [], false⟩ [] := .nil rfl
  have hcopy := ofStore_store (b := ⟨"cpu_memcpy", [], false⟩) rfl hF numa
  rw [hcopy, Configuration.autoCorrect_of hpages] at hok
  exact hnil.settles hF copy hpages hcopy (Configuration.checkFragment_ok hok) m

theorem fragments_measured (hF : Forwardable args "cpu_memcpy") (numa : NumaConfig)
    (hok : (Configuration.ofStore (Benchmark.store .memcpy numa args
      ⟨"cpu_memcpy", ["-f", "16384"], false⟩ [fragmentUsage])).autoCorrect.checkFragment.isOk =
        true) (m : Machine) :
    Benchmark.measured m args numa ⟨"cpu_memcpy", ["-f", "16384"], false⟩ =
      settled (.memcpy, { args.configure .memcpy (.byDefault .memcpy numa) with
        fragmentSizeB := 16384 }) := by
  let copy := args.configure .memcpy (.byDefault .memcpy numa)
  let config : Configuration := { copy with fragmentSizeB := 16384 }
  have hpages : config.useHugepage = 0 := configure_useHugepage args .memcpy numa
  have hcopy : Configuration.ofStore (Benchmark.store .memcpy numa args
      ⟨"cpu_memcpy", ["-f", "16384"], false⟩ ([] ++ [fragmentUsage])) = config := by
    rw [store_snoc, show config = { copy with fragmentSizeB := 16384 } from rfl,
      show copy = args.configure .memcpy (.byDefault .memcpy numa) from rfl,
      ← ofStore_store (b := ⟨"cpu_memcpy", ["-f", "16384"], false⟩) rfl hF numa]
    rfl
  rw [← List.nil_append [fragmentUsage], hcopy, Configuration.autoCorrect_of hpages] at hok
  exact (reads_fragment numa false).settles hF config hpages hcopy
    (Configuration.checkFragment_ok hok) m

theorem bandwidth_measured (hF : ∀ name, Forwardable args name) (hfits : FragmentFits args)
    (m : Machine) (numa : NumaConfig) (matrices : Bool) :
    ([⟨"cpu_peak_bandwidth", [], false⟩] ++
      ((if matrices then ["0", "1"].map fun mix =>
        ⟨"cpu_peak_bandwidth", ["--bandwidth_matrix", "-m", mix], false⟩ else []) ++
      ([⟨"cpu_memcpy", [], false⟩] ++ [⟨"cpu_memcpy", ["-f", "16384"], false⟩])) :
        List Benchmark).map (Benchmark.measured m args numa) =
      (args.bandwidthMeasurements numa matrices).map settled := by
  have hF' := hF "cpu_memcpy"
  have hwhole := whole_measured hF' numa (memcpy_whole (.nil rfl) hF' hfits) m
  have hfragments :=
    fragments_measured hF' numa ((memcpy_fragments (reads_fragment numa false) hF').2 hfits) m
  have hpeak := peak_measured (hF "cpu_peak_bandwidth") m numa
  have hzero : uint32.assign "0".toList = .ok ((0 : Nat) : Int) := rfl
  have hone : uint32.assign "1".toList = .ok ((1 : Nat) : Int) := rfl
  have hreads := mix_measured (hF "cpu_peak_bandwidth") hzero (by decide) (by decide) m numa
  have hwrites := mix_measured (hF "cpu_peak_bandwidth") hone (by decide) (by decide) m numa
  rw [Args.bandwidthMeasurements]
  cases matrices with
  | false =>
    simp only [Bool.false_eq_true, if_false, List.map_cons, List.map_nil, List.nil_append,
      List.cons_append, hpeak, hwhole, hfragments]
  | true =>
    simp only [if_true, List.map_cons, List.map_nil, List.nil_append, List.cons_append, hpeak,
      hwhole, hfragments, hreads, hwrites]
    rfl

theorem testPlan_measured (hsize : HugeSize hugeSize) (h : Acceptable args) (m : Machine)
    (numa : NumaConfig) (matrices : Bool) :
    (testPlan args.selected matrices hugeSize).map (Benchmark.measured m args numa) =
      (args.measurements numa matrices hugeSize).map settled := by
  rw [testPlan, Args.measurements, List.map_append, List.map_append, List.map_append,
    List.map_append]
  refine congrArg₂ (· ++ ·) (congrArg₂ (· ++ ·) ?_ ?_) ?_
  · split
    · exact idle_measured (h.forwardable fun hne => absurd rfl hne) hsize m numa matrices
    · rfl
  · split
    · next hsel =>
      exact bandwidth_measured (fun name => h.forwardable fun _ => .inl hsel) (h.fragments hsel)
        m numa matrices
    · rfl
  · split
    · next hsel => exact loaded_measured (h.forwardable fun _ => .inr hsel) hsize m numa
    · rfl

theorem mem_measured {plan : List Benchmark} {es : List (TestingType × Configuration)}
    (hb : b ∈ plan) (h : plan.map (Benchmark.measured m args numa) = es.map settled) :
    ∃ e ∈ es, b.measured m args numa = settled e := by
  have hmeasured := List.mem_map_of_mem (f := Benchmark.measured m args numa) hb
  rw [h] at hmeasured
  obtain ⟨e, he, heq⟩ := List.mem_map.1 hmeasured
  exact ⟨e, he, heq.symm⟩

theorem bandwidth_accepted (hF : Forwardable args b.name)
    (hb : b = ⟨"cpu_peak_bandwidth", [], false⟩ ∨
      (matrices = true ∧ ∃ mix, (mix = "0" ∨ mix = "1") ∧
        b = ⟨"cpu_peak_bandwidth", ["--bandwidth_matrix", "-m", mix], false⟩) ∨
      b = ⟨"cpu_memcpy", [], false⟩ ∨ b = ⟨"cpu_memcpy", ["-f", "16384"], false⟩)
    (h : b.accepted m args numa = true) :
    ∃ e ∈ args.bandwidthMeasurements numa matrices, b.measured m args numa = settled e := by
  rw [Args.bandwidthMeasurements]
  rcases hb with rfl | ⟨rfl, mix, rfl | rfl, rfl⟩ | rfl | rfl
  · exact ⟨_, List.mem_cons_self, peak_measured hF m numa⟩
  · have hzero : uint32.assign "0".toList = .ok ((0 : Nat) : Int) := rfl
    exact ⟨_, .tail _ List.mem_cons_self, mix_measured hF hzero (by decide) (by decide) m numa⟩
  · have hone : uint32.assign "1".toList = .ok ((1 : Nat) : Int) := rfl
    exact ⟨_, .tail _ (.tail _ List.mem_cons_self),
      mix_measured hF hone (by decide) (by decide) m numa⟩
  · have hok := (Benchmark.Reads.accepted_iff (.nil rfl) m args).1 h
    exact ⟨_, List.mem_append_right _ (List.mem_append_right _ List.mem_cons_self),
      whole_measured hF numa (hok.2 rfl) m⟩
  · have hok := ((reads_fragment numa false).accepted_iff m args).1 h
    exact ⟨_, List.mem_append_right _ (List.mem_append_right _ (.tail _ List.mem_cons_self)),
      fragments_measured hF numa (hok.2 rfl) m⟩

/-- A command its binary accepts is measured as the suite means it, whatever becomes of the
others. -/
theorem accepted_measured (hsize : HugeSize hugeSize)
    (hb : b ∈ testPlan args.selected matrices hugeSize) (h : b.accepted m args numa = true) :
    ∃ e ∈ args.measurements numa matrices hugeSize, b.measured m args numa = settled e := by
  have hF := accepted_forwardable hb h
  simp only [Args.measurements, List.mem_append, List.mem_ite_nil_right]
  rcases mem_testPlan.1 hb with ⟨hsel, hidle⟩ | ⟨hsel, hbandwidth⟩ | ⟨hsel, hloaded⟩
  · have hname : b.name = "cpu_idle_latency" := by
      rcases hidle with rfl | ⟨-, rfl⟩
      · rfl
      · rfl
    have hb' : b ∈ [(⟨"cpu_idle_latency", matrixOptions matrices, false⟩ : Benchmark)] ++
        hugeBenchmarks "cpu_idle_latency" (matrixOptions matrices) hugeSize := by
      simpa [hugeBenchmarks, List.mem_ite_nil_right] using hidle
    obtain ⟨e, he, heq⟩ := mem_measured hb' (idle_measured (hname ▸ hF) hsize m numa matrices)
    exact ⟨e, .inl (.inl ⟨hsel, he⟩), heq⟩
  · obtain ⟨e, he, heq⟩ := bandwidth_accepted hF hbandwidth h
    exact ⟨e, .inl (.inr ⟨hsel, he⟩), heq⟩
  · have hname : b.name = "cpu_loaded_latency" := by
      rcases hloaded with rfl | ⟨-, rfl⟩
      · rfl
      · rfl
    have hb' : b ∈ [(⟨"cpu_loaded_latency", [], false⟩ : Benchmark)] ++
        hugeBenchmarks "cpu_loaded_latency" [] hugeSize := by
      simpa [hugeBenchmarks, List.mem_ite_nil_right] using hloaded
    obtain ⟨e, he, heq⟩ := mem_measured hb' (loaded_measured (hname ▸ hF) hsize m numa)
    exact ⟨e, .inr ⟨hsel, he⟩, heq⟩

/-- The pages of a measurement: those the system has, or huge ones of the size the scripts chose,
with all lines of the region in one random order. -/
def Measured (hugeSize : Nat) (e : TestingType × Configuration) : Prop :=
  e.2.useHugepage = 0 ∨ hugeSize ≠ 0 ∧ (e.1 = .latency ∨ e.1 = .latencyBandwidth) ∧
    e.2.useHugepage > 0 ∧ e.2.accessPattern = 2 ∧
    2 ^ hugepageSizeLog2 e.2.useHugepage.toInt32.toInt = hugeSize * 1024

theorem withHugePages_pages {config : Configuration} (hsize : HugeSize hugeSize)
    (ht : t = .latency ∨ t = .latencyBandwidth) (hpages : config.useHugepage = 0) :
    ∀ e ∈ withHugePages t config hugeSize, Measured hugeSize e := by
  intro e he
  rw [withHugePages, List.mem_cons] at he
  rcases he with rfl | he
  · exact .inl hpages
  split at he
  · exact absurd he List.not_mem_nil
  next hne =>
  obtain rfl := List.mem_singleton.1 he
  obtain ⟨hpos, hlog⟩ := hugeOption_pages hne hsize
  exact .inr ⟨hne, ht, hpos, rfl, hlog⟩

theorem bandwidth_pages (args : Args) (numa : NumaConfig) (matrices : Bool) :
    ∀ e ∈ args.bandwidthMeasurements numa matrices, e.2.useHugepage = 0 := by
  have hbase : ∀ t, (args.configure t (.byDefault t numa)).useHugepage = 0 :=
    fun t => configure_useHugepage args t numa
  intro e he
  simp only [Args.bandwidthMeasurements, List.mem_append, List.mem_ite_nil_right, List.mem_map,
    List.mem_cons, List.not_mem_nil, or_false] at he
  rcases he with rfl | ⟨-, mix, -, rfl⟩ | rfl | rfl
  · exact hbase .bandwidth
  · exact hbase .bandwidth
  · exact hbase .memcpy
  · exact hbase .memcpy

theorem measurements_pages (hsize : HugeSize hugeSize) (args : Args) (numa : NumaConfig)
    (matrices : Bool) : ∀ e ∈ args.measurements numa matrices hugeSize, Measured hugeSize e := by
  intro e he
  rw [Args.measurements, List.mem_append, List.mem_append, List.mem_ite_nil_right,
    List.mem_ite_nil_right, List.mem_ite_nil_right] at he
  rcases he with (⟨-, he⟩ | ⟨-, he⟩) | ⟨-, he⟩
  · refine withHugePages_pages hsize (.inl rfl) ?_ e he
    exact configure_useHugepage args .latency numa
  · exact .inl (bandwidth_pages args numa matrices e he)
  · exact withHugePages_pages hsize (.inr rfl)
      (configure_useHugepage args .latencyBandwidth numa) e he

/-- Every test of the suite comes to the configurations its caller asked for: what the runner
writes on the command lines is what the binaries read from them, in the same order. The pages are
those the system has, or in the latency tests huge pages of the size that was chosen. -/
theorem suite_measures (m : Machine) (args : Args) (numa : NumaConfig) (matrices : Bool)
    (hugeSize : Nat) (hsize : HugeSize hugeSize) (h : Acceptable args) :
    (testPlan args.selected matrices hugeSize).map (Benchmark.measured m args numa) =
      (args.measurements numa matrices hugeSize).map settled ∧
    ∀ e ∈ args.measurements numa matrices hugeSize, Measured hugeSize e :=
  ⟨testPlan_measured hsize h m numa matrices, measurements_pages hsize args numa matrices⟩

/-- Loaded latency with four threads on regions of 1 MiB, without huge pages and on those of
2 MiB. -/
theorem suite_measures_loaded :
    let m : Machine := ⟨true, true, false, false, 8, fun _ => true, id, [⟨0, none, []⟩]⟩
    let args : Args := ⟨⟨2, by decide⟩, [.loadedLatency], some ⟨4, by decide⟩,
      some ⟨1024, by decide⟩, false, .auto, false, false, false, false⟩
    let numa : NumaConfig := ⟨1, 8, List.range 8, fun _ => 0, fun _ => [], fun _ => []⟩
    let config : Configuration :=
      ⟨0, 4, 1024, false, false, 1, 64, 128, 4096, 0, 2, 0, 2, false, false, false⟩
    (testPlan args.selected true 2048).map (Benchmark.measured m args numa) =
      [settled (.latencyBandwidth, config), settled (.latencyBandwidth,
        { config with accessPattern := 2, useHugepage := 1, chunkSizeKb := 1024 })] := by
  intro m args numa config
  have hargs : Acceptable args := by
    refine ⟨by decide, ?_, ?_, nofun⟩
    · rintro - n hn
      cases hn
      decide
    · rintro n hn
      cases hn
      decide
  exact (suite_measures m args numa true 2048 (.inr rfl) hargs).1

end MmMem

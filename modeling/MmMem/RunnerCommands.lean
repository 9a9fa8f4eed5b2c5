import MmMem.RunnerPlan
import MmMem.Configuration
import MmMem.CommandLineLanguage
import MmMem.CommandLineValues

namespace MmMem
open Prog
set_option autoImplicit true

/-- The testing type each binary makes its `Configuration` for. -/
def testingType (name : String) : Option TestingType :=
  [("cpu_idle_latency", TestingType.latency), ("cpu_peak_bandwidth", .bandwidth),
    ("cpu_memcpy", .memcpy), ("cpu_loaded_latency", .latencyBandwidth)].lookup name

/-- `parse_options` returns 0, and so the check of `cpu_memcpy` passes. -/
def acceptedBy (t : TestingType) (numa : NumaConfig) (argv : List Text) : Bool :=
  match Configuration.parseOptions t numa argv with
  | .done (.ok config) => t != .memcpy || config.checkFragment.isOk
  | _ => false

/-- The arguments the binary gets, its own path first. -/
def Benchmark.argv (m : Machine) (args : Args) (b : Benchmark) : List Text :=
  (benchmarkCommand m args b.name b.options none).map String.toList

def Benchmark.accepted (m : Machine) (args : Args) (numa : NumaConfig) (b : Benchmark) : Bool :=
  match testingType b.name with
  | some t => acceptedBy t numa (b.argv m args)
  | none => false

theorem options_numa (t : TestingType) (numa numa' : NumaConfig) :
    (Configuration.options t numa).map (·.option) =
      (Configuration.options t numa').map (·.option) := by
  cases t <;> rfl

theorem options_table (t : TestingType) (numa : NumaConfig) :
    OptionTable ((Configuration.options t numa).map (·.option)) := by
  rw [options_numa t numa ⟨0, 0, [], fun _ => 0, fun _ => [], fun _ => []⟩]
  constructor
  · cases t <;> decide
  · cases t <;> decide
  · intro o ho
    have hlen : o.aliasName.length ≤ 1 := by
      revert o
      cases t <;> decide
    match h : o.aliasName, hlen with
    | [], _ => exact .inl rfl
    | [c], _ => exact .inr ⟨c, rfl⟩
  · cases t <;> decide
  · cases t <;> decide

theorem options_dash (t : TestingType) (numa : NumaConfig) :
    ∀ o ∈ (Configuration.options t numa).map (·.option), o.aliasName ≠ ['-'] := by
  rw [options_numa t numa ⟨0, 0, [], fun _ => 0, fun _ => [], fun _ => []⟩]
  cases t <;> decide

/-- An option given by its alias, with its value in the next argument. -/
def Usage.short (d : Declaration Setting) (c : Char) (text : Text) : Usage Setting :=
  ⟨d.option, [['-', c], text], text⟩

def Usage.long (d : Declaration Setting) : Usage Setting :=
  ⟨d.option, [dashes ++ d.option.name], []⟩

def durationUsage (n : Nat) : Usage Setting :=
  .short (.value "target_duration,t".toList .targetDurationS uint32 10) 't' (toString n).toList

def threadsUsage (n : Nat) : Usage Setting :=
  .short (.value "num_threads,n".toList .numThreads uint32 1) 'n' (toString n).toList

def regionUsage (n : Nat) : Usage Setting :=
  .short (.value "region_size,b".toList .regionSizeKb uint64 0) 'b' (toString n).toList

theorem Usage.value_of {u : Usage Setting} (h : u.option.assign u.text = .ok v) : u.value = v := by
  rw [Usage.value, h]

theorem Usage.value_short {type : IntType} {n : Nat} (ht : type.signed = false)
    (hbits : type.bits ≤ 64) (h : n < 2 ^ type.bits) :
    (Usage.short (.value names target type initial) c (toString n).toList).value = n := by
  apply Usage.value_of
  rw [Usage.short, (Declaration.option_value names target type initial).2]
  exact (IntType.assign_toString ht hbits n n).2 ⟨h, rfl⟩

/-- What the runner's own options become. -/
def forwarded (args : Args) (name : String) : List (Usage Setting) :=
  [durationUsage args.targetDuration.1] ++
    (match args.numThreads with
      | some n => if name ≠ "cpu_idle_latency" then [threadsUsage n.1] else []
      | none => []) ++
    (match args.regionSize with
      | some n => [regionUsage n.1]
      | none => [])

/-- The forwarded numbers fit the members they are stored in. -/
def Forwardable (args : Args) (name : String) : Prop :=
  args.targetDuration.1 < 2 ^ 32 ∧
    (name ≠ "cpu_idle_latency" → ∀ n ∈ args.numThreads, n.1 < 2 ^ 32) ∧
    ∀ n ∈ args.regionSize, n.1 < 2 ^ 64

theorem argv_forwarded (m : Machine) (args : Args) (b : Benchmark) :
    (b.argv m args).drop 1 =
      (forwarded args b.name).flatMap (·.tokens) ++ b.options.map String.toList := by
  rw [Benchmark.argv, benchmarkCommand, forwarded]
  cases args.numThreads with
  | none =>
    cases args.regionSize with
    | none => rfl
    | some r => rfl
  | some n =>
    by_cases hname : b.name = "cpu_idle_latency"
    · simp only [hname, ne_eq, not_true, if_false]
      cases args.regionSize with
      | none => rfl
      | some r => rfl
    · simp only [hname, ne_eq, not_false_eq_true, if_true]
      cases args.regionSize with
      | none => rfl
      | some r => rfl

theorem mem_forwarded : u ∈ forwarded args name ↔ u = durationUsage args.targetDuration.1 ∨
    (∃ n ∈ args.numThreads, name ≠ "cpu_idle_latency" ∧ u = threadsUsage n.1) ∨
    ∃ n ∈ args.regionSize, u = regionUsage n.1 := by
  rw [forwarded, List.mem_append, List.mem_append, List.mem_singleton, or_assoc]
  apply or_congr_right
  apply or_congr
  · cases args.numThreads with
    | none => simp
    | some n => simp
  · cases args.regionSize with
    | none => simp
    | some n => simp

theorem forwarded_converts (args : Args) (name : String) :
    (∀ u ∈ forwarded args name, ∃ v, u.option.assign u.text = .ok v) ↔ Forwardable args name := by
  have hduration : ∀ n, (∃ v, (durationUsage n).option.assign (durationUsage n).text = .ok v) ↔
      n < 2 ^ 32 := converts_iff (t := uint32) rfl (by decide)
  have hthreads : ∀ n, (∃ v, (threadsUsage n).option.assign (threadsUsage n).text = .ok v) ↔
      n < 2 ^ 32 := converts_iff (t := uint32) rfl (by decide)
  have hregion : ∀ n, (∃ v, (regionUsage n).option.assign (regionUsage n).text = .ok v) ↔
      n < 2 ^ 64 := converts_iff (t := uint64) rfl (by decide)
  constructor
  · intro h
    refine ⟨?_, fun hname n hn => ?_, fun n hn => ?_⟩
    · exact (hduration _).1 (h _ (mem_forwarded.2 (.inl rfl)))
    · exact (hthreads _).1 (h _ (mem_forwarded.2 (.inr (.inl ⟨n, hn, hname, rfl⟩))))
    · exact (hregion _).1 (h _ (mem_forwarded.2 (.inr (.inr ⟨n, hn, rfl⟩))))
  · rintro ⟨hT, hN, hR⟩ u hu
    rcases mem_forwarded.1 hu with rfl | ⟨n, hn, hname, rfl⟩ | ⟨n, hn, rfl⟩
    · exact (hduration _).2 hT
    · exact (hthreads _).2 (hN hname n hn)
    · exact (hregion _).2 (hR n hn)

theorem short_spelled {d : Declaration Setting} {text : Text} (hf : d.option.isFlag = false)
    (ha : d.option.aliasName = [c]) (ht : text.take 2 ≠ dashes) :
    Spells (Usage.short d c text).option (Usage.short d c text).tokens text :=
  .shortDetached hf ha ht

/-- Members the options that are always there are bound to. -/
def generic : List Setting := [.help, .targetDurationS, .numThreads, .regionSizeKb]

/-- The options of a benchmark, read as usages of its binary's own options. -/
structure Benchmark.Reads (t : TestingType) (numa : NumaConfig) (b : Benchmark)
    (extra : List (Usage Setting)) : Prop where
  binary : testingType b.name = some t
  tokens : b.options.map String.toList = extra.flatMap (·.tokens)
  known : ∀ u ∈ extra, u.option ∈ (Configuration.options t numa).map (·.option)
  spelled : ∀ u ∈ extra, Spells u.option u.tokens u.text
  once : (extra.map (·.option.target)).Nodup
  own : ∀ u ∈ extra, u.option.target ∉ generic
  converted : ∀ u ∈ extra, ∃ v, u.option.assign u.text = .ok v

theorem testingType_ne : testingType name ≠ some .branchThroughput := by
  intro h
  obtain ⟨l₁, l₂, hl, -⟩ := List.lookup_eq_some_iff.1 h
  have hmem : (name, TestingType.branchThroughput) ∈ l₁ ++ (name, .branchThroughput) :: l₂ :=
    List.mem_append_right l₁ List.mem_cons_self
  rw [← hl] at hmem
  simp at hmem

theorem forwarded_known (ht : testingType name = some t) (numa : NumaConfig)
    (hu : u ∈ forwarded args name) :
    u.option ∈ (Configuration.options t numa).map (·.option) := by
  rcases mem_forwarded.1 hu with rfl | ⟨n, -, -, rfl⟩ | ⟨n, -, rfl⟩
  · cases t <;> exact List.mem_of_getElem? (i := 1) rfl
  · cases t <;> exact List.mem_of_getElem? (i := 2) rfl
  · cases t with
    | branchThroughput => exact absurd ht testingType_ne
    | _ => exact List.mem_of_getElem? (i := 3) rfl

theorem forwarded_spelled (hu : u ∈ forwarded args name) : Spells u.option u.tokens u.text := by
  rcases mem_forwarded.1 hu with rfl | ⟨n, -, -, rfl⟩ | ⟨n, -, rfl⟩
  · exact short_spelled rfl rfl (toString_not_dashes _)
  · exact short_spelled rfl rfl (toString_not_dashes _)
  · exact short_spelled rfl rfl (toString_not_dashes _)

theorem forwarded_targets (args : Args) (name : String) :
    ((forwarded args name).map (·.option.target)).Sublist
      [.targetDurationS, .numThreads, .regionSizeKb] := by
  rw [forwarded]
  cases args.numThreads with
  | none =>
    cases args.regionSize with
    | none => exact List.sublist_append_left [Setting.targetDurationS] _
    | some r => exact (List.sublist_cons_self Setting.numThreads _).cons_cons _
  | some n =>
    by_cases hname : name = "cpu_idle_latency"
    · simp only [hname, ne_eq, not_true, if_false]
      cases args.regionSize with
      | none => exact List.sublist_append_left [Setting.targetDurationS] _
      | some r => exact (List.sublist_cons_self Setting.numThreads _).cons_cons _
    · simp only [hname, ne_eq, not_false_eq_true, if_true]
      cases args.regionSize with
      | none => exact List.sublist_append_left [Setting.targetDurationS, .numThreads] _
      | some r => exact List.Sublist.refl _

variable {m : Machine} {args : Args} {b : Benchmark} {t : TestingType} {numa : NumaConfig}
  {extra : List (Usage Setting)}

theorem Benchmark.Reads.targets (h : b.Reads t numa extra) (args : Args) :
    ((forwarded args b.name ++ extra).map (·.option.target)).Nodup := by
  rw [List.map_append, List.nodup_append]
  refine ⟨(forwarded_targets args b.name).nodup (by decide), h.once, ?_⟩
  intro x hx y hy heq
  obtain ⟨u, hu, rfl⟩ := List.mem_map.1 hy
  apply h.own u hu
  rw [← heq]
  exact List.mem_cons_of_mem _ ((forwarded_targets args b.name).subset hx)

theorem Benchmark.Reads.written (h : b.Reads t numa extra) (m : Machine) (args : Args) :
    Written ((Configuration.options t numa).map (·.option)) [] ((b.argv m args).drop 1)
      (forwarded args b.name ++ extra) where
  known u hu := (List.mem_append.1 hu).elim (forwarded_known h.binary numa) (h.known u)
  spelled u hu := (List.mem_append.1 hu).elim forwarded_spelled (h.spelled u)
  once := by
    have hmap : (forwarded args b.name ++ extra).map (·.option.target) =
        ((forwarded args b.name ++ extra).map (·.option)).map (·.target) := (List.map_map ..).symm
    exact List.Nodup.of_map _ (hmap ▸ h.targets args)
  fresh _ _ := List.not_mem_nil
  args := by rw [argv_forwarded, h.tokens, List.flatMap_append]

/-- The values the binary starts from, and those it is given. -/
def Benchmark.store (t : TestingType) (numa : NumaConfig) (args : Args) (b : Benchmark)
    (extra : List (Usage Setting)) : Setting → Int :=
  assignAll (forwarded args b.name ++ extra) (declare (Configuration.options t numa) Setting.initial)

theorem Benchmark.Reads.store_given (h : b.Reads t numa extra) {u : Usage Setting}
    (hu : u ∈ forwarded args b.name ++ extra) :
    b.store t numa args extra u.option.target = u.value := foldl_update_mem (h.targets args) hu _

theorem Benchmark.store_default {x : Setting}
    (hx : ∀ u ∈ forwarded args b.name ++ extra, u.option.target ≠ x) :
    b.store t numa args extra x = declare (Configuration.options t numa) Setting.initial x :=
  foldl_update_ne hx _

theorem Benchmark.Reads.store_help (h : b.Reads t numa extra) (args : Args) :
    b.store t numa args extra .help = 0 := by
  rw [Benchmark.store_default]
  · cases t <;> rfl
  · intro u hu htarget
    rcases List.mem_append.1 hu with hu | hu
    · have hmem := (forwarded_targets args b.name).subset (List.mem_map.2 ⟨u, hu, rfl⟩)
      rw [htarget] at hmem
      revert hmem
      decide
    · exact h.own u hu (htarget ▸ List.mem_cons_self)

/-- A command is accepted if the numbers in it fit and, for `cpu_memcpy`, its fragments do. -/
theorem Benchmark.Reads.accepted_iff (h : b.Reads t numa extra) (m : Machine) (args : Args) :
    b.accepted m args numa = true ↔ Forwardable args b.name ∧ (t = .memcpy →
      (Configuration.ofStore (b.store t numa args extra)).autoCorrect.checkFragment.isOk =
        true) := by
  have hforward : (∀ u ∈ forwarded args b.name ++ extra, ∃ v, u.option.assign u.text = .ok v) ↔
      Forwardable args b.name := by
    rw [← forwarded_converts]
    constructor
    · exact fun hall u hu => hall u (List.mem_append_left _ hu)
    · exact fun hall u hu => (List.mem_append.1 hu).elim (hall u) (h.converted u)
  rw [Benchmark.accepted, h.binary]
  simp only [acceptedBy, Configuration.parseOptions]
  rcases parse_written (options_table t numa) (options_dash t numa) (h.written m args)
    (declare (Configuration.options t numa) Setting.initial) with ⟨hall, hp⟩ |
      ⟨⟨u, hu, hbad⟩, message, hp⟩
  · rw [hp]
    have hread : (if b.store t numa args extra .help ≠ 0 then
        (Run.done (.error .usage) : Run ParseFault (Except Refusal Configuration))
        else .done (.ok (Configuration.ofStore (b.store t numa args extra)).autoCorrect)) =
          .done (.ok (Configuration.ofStore (b.store t numa args extra)).autoCorrect) :=
      if_neg (not_not.2 (h.store_help args))
    rw [Benchmark.store] at hread
    simp only [hread]
    rw [Bool.or_eq_true, bne_iff_ne, ← imp_iff_not_or]
    exact (and_iff_right (hforward.1 hall)).symm
  · rw [hp]
    refine iff_of_false Bool.false_ne_true fun hboth => ?_
    obtain ⟨v, hv⟩ := hforward.2 hboth.1 u hu
    exact hbad v hv

/-- The fragments of the second `cpu_memcpy` command fit the region asked for. -/
def FragmentFits (args : Args) : Prop := ∀ n ∈ args.regionSize, 16384 ≤ n.1 * 1024 % 2 ^ 64

def fragmentUsage : Usage Setting :=
  .short (.value "fragment_size,f".toList .fragmentSizeB uint64 0) 'f' "16384".toList

def Args.regionKib (args : Args) : Nat :=
  match args.regionSize with
  | some n => n.1
  | none => 128 * 1024

theorem toNat_region {n : Nat} (h : n < 2 ^ 64) :
    (UInt64.ofInt (n : Int) * 1024).toNat = n * 1024 % 2 ^ 64 := by
  rw [UInt64.toNat_mul, uint64_ofInt, UInt64.toNat_ofNat_of_lt' h]
  rfl

theorem checkFragment_isOk {config : Configuration} {fragmentSizeB : UInt64}
    (hf : (if config.fragmentSizeB = 0 then config.regionSizeKb * 1024
      else config.fragmentSizeB) = fragmentSizeB) :
    config.checkFragment.isOk = true ↔ fragmentSizeB.toNat ≠ 0 ∧
      fragmentSizeB.toNat ≤ (config.regionSizeKb * 1024).toNat := by
  rw [Configuration.checkFragment, hf]
  split
  · next h =>
    refine iff_of_false Bool.false_ne_true fun ⟨hne, hle⟩ => ?_
    rcases h with h | h
    · exact hne (congrArg UInt64.toNat h)
    · exact absurd (UInt64.lt_iff_toNat_lt.1 h) (Nat.not_lt_of_le hle)
  · next h =>
    rw [not_or] at h
    refine iff_of_true rfl ⟨fun hzero => h.1 (UInt64.toNat_inj.1 hzero), ?_⟩
    exact Nat.le_of_not_lt fun hlt => h.2 (UInt64.lt_iff_toNat_lt.2 hlt)

theorem forwarded_target (hu : u ∈ forwarded args name) : u.option.target ∈ generic :=
  List.mem_cons_of_mem _ ((forwarded_targets args name).subset (List.mem_map.2 ⟨u, hu, rfl⟩))

theorem memcpy_region (h : b.Reads .memcpy numa extra) (hF : Forwardable args b.name) :
    b.store .memcpy numa args extra .regionSizeKb = args.regionKib := by
  rw [Args.regionKib]
  cases hr : args.regionSize with
  | some r =>
    have hmem : regionUsage r.1 ∈ forwarded args b.name :=
      mem_forwarded.2 (.inr (.inr ⟨r, hr, rfl⟩))
    have hvalue : (regionUsage r.1).value = r.1 := Usage.value_short rfl (by decide) (hF.2.2 r hr)
    exact (h.store_given (List.mem_append_left _ hmem)).trans hvalue
  | none =>
    rw [Benchmark.store_default]
    · rfl
    · intro u hu htarget
      rcases List.mem_append.1 hu with hu | hu
      · rcases mem_forwarded.1 hu with rfl | ⟨n, -, -, rfl⟩ | ⟨n, hn, -⟩
        · cases htarget
        · cases htarget
        · rw [hr] at hn
          cases hn
      · exact h.own u hu (htarget ▸ by decide)

/-- An option that is neither forwarded nor among those of the benchmark keeps its default. -/
theorem store_untouched {x : Setting} (hx : x ∉ generic)
    (hextra : ∀ u ∈ extra, u.option.target ≠ x) :
    b.store t numa args extra x = declare (Configuration.options t numa) Setting.initial x := by
  apply Benchmark.store_default
  intro u hu htarget
  rcases List.mem_append.1 hu with hu | hu
  · exact hx (htarget ▸ forwarded_target hu)
  · exact hextra u hu htarget

theorem fragmentFits_iff (args : Args) :
    FragmentFits args ↔ 16384 ≤ args.regionKib * 1024 % 2 ^ 64 := by
  rw [FragmentFits, Args.regionKib]
  cases args.regionSize with
  | none => exact iff_of_true nofun (by decide)
  | some n => exact ⟨fun h => h n rfl, fun h x hx => Option.some.inj hx ▸ h⟩

theorem regionKib_lt (hF : Forwardable args name) : args.regionKib < 2 ^ 64 := by
  rw [Args.regionKib]
  cases hr : args.regionSize with
  | none => decide
  | some n => exact hF.2.2 n hr

theorem memcpy_config (h : b.Reads .memcpy numa extra) (hF : Forwardable args b.name)
    (hextra : ∀ u ∈ extra, u.option.target ≠ .useHugepage) :
    let config := (Configuration.ofStore (b.store .memcpy numa args extra)).autoCorrect
    config.fragmentSizeB = .ofInt (b.store .memcpy numa args extra .fragmentSizeB) ∧
      (config.regionSizeKb * 1024).toNat = args.regionKib * 1024 % 2 ^ 64 := by
  have hhuge : b.store .memcpy numa args extra .useHugepage = 0 := by
    rw [store_untouched (by decide) hextra]
    rfl
  intro config
  have hconfig : config = .ofStore (b.store .memcpy numa args extra) := by
    refine if_neg ?_
    rw [Configuration.ofStore, hhuge]
    exact fun h : (0 : UInt32) > 0 => absurd h (by decide)
  refine ⟨by rw [hconfig, Configuration.ofStore], ?_⟩
  rw [hconfig, Configuration.ofStore, memcpy_region h hF]
  exact toNat_region (regionKib_lt hF)

theorem memcpy_whole (h : b.Reads .memcpy numa []) (hF : Forwardable args b.name)
    (hfits : FragmentFits args) :
    (Configuration.ofStore (b.store .memcpy numa args [])).autoCorrect.checkFragment.isOk =
      true := by
  obtain ⟨hfragment, hregion⟩ := memcpy_config h hF nofun
  have hzero : b.store .memcpy numa args [] .fragmentSizeB = 0 := by
    refine (store_untouched (x := .fragmentSizeB) (by decide) fun u hu => ?_).trans rfl
    exact absurd hu List.not_mem_nil
  rw [hzero] at hfragment
  rw [checkFragment_isOk (if_pos hfragment), hregion]
  have hle := (fragmentFits_iff args).1 hfits
  exact ⟨Nat.ne_of_gt (Nat.lt_of_lt_of_le (by decide) hle), Nat.le_refl _⟩

theorem memcpy_fragments (h : b.Reads .memcpy numa [fragmentUsage])
    (hF : Forwardable args b.name) :
    (Configuration.ofStore
      (b.store .memcpy numa args [fragmentUsage])).autoCorrect.checkFragment.isOk = true ↔
        FragmentFits args := by
  obtain ⟨hfragment, hregion⟩ := memcpy_config h hF fun u hu => by
    rw [List.mem_singleton.1 hu]
    decide
  have hvalue : b.store .memcpy numa args [fragmentUsage] .fragmentSizeB = 16384 :=
    h.store_given (List.mem_append_right _ (List.mem_singleton_self fragmentUsage))
  rw [hvalue] at hfragment
  have hne : ¬ UInt64.ofInt 16384 = 0 := by decide
  rw [checkFragment_isOk (if_neg (hfragment ▸ hne)), hregion, hfragment, fragmentFits_iff]
  exact and_iff_right (by decide)

end MmMem

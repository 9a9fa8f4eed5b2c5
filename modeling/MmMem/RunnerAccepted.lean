import MmMem.RunnerCommands

namespace MmMem
open Prog
set_option autoImplicit true

variable {m : Machine} {args : Args} {b : Benchmark} {t : TestingType} {numa : NumaConfig}
  {extra : List (Usage Setting)} {u : Usage Setting} {name : String} {options : List String}
  {huge : Bool}

def patternUsage : Usage Setting :=
  .short (.value "access_pattern,p".toList .accessPattern uint32 1) 'p' "2".toList

def hugepageUsage (option : Nat) : Usage Setting :=
  .short (.value "use_hugepage,H".toList .useHugepage uint32 0) 'H' (toString option).toList

def latencyMatrixUsage : Usage Setting := .long (.flag "latency_matrix".toList .latencyMatrix)

def matrixUsages (matrices : Bool) : List (Usage Setting) :=
  if matrices then [latencyMatrixUsage] else []

def bandwidthMatrixUsage : Usage Setting :=
  .long (.flag "bandwidth_matrix".toList .bandwidthMatrix)

def mixUsage (mix : String) : Usage Setting :=
  .short (.value "read_write_mix,m".toList .readWriteMix uint32 2) 'm' mix.toList

theorem Benchmark.Reads.nil (hname : testingType name = some t) :
    Benchmark.Reads t numa ⟨name, [], huge⟩ [] where
  binary := hname
  tokens := rfl
  known _ hu := absurd hu List.not_mem_nil
  spelled _ hu := absurd hu List.not_mem_nil
  once := List.nodup_nil
  own _ hu := absurd hu List.not_mem_nil
  converted _ hu := absurd hu List.not_mem_nil

/-- One more option in front. -/
theorem Benchmark.Reads.cons (h : Benchmark.Reads t numa ⟨name, options, huge⟩ extra)
    {tokens : List String} (htokens : tokens.map String.toList = u.tokens) (i : Nat)
    (hknown : ((Configuration.options t numa).map (·.option))[i]? = some u.option)
    (hs : Spells u.option u.tokens u.text) (hown : u.option.target ∉ generic)
    (hnew : u.option.target ∉ extra.map (·.option.target))
    (hv : u.option.assign u.text = .ok v) :
    Benchmark.Reads t numa ⟨name, tokens ++ options, huge⟩ (u :: extra) where
  binary := h.binary
  tokens := by rw [List.map_append, htokens, List.flatMap_cons, h.tokens]
  known := List.forall_mem_cons.2 ⟨List.mem_of_getElem? hknown, h.known⟩
  spelled := List.forall_mem_cons.2 ⟨hs, h.spelled⟩
  once := List.nodup_cons.2 ⟨hnew, h.once⟩
  own := List.forall_mem_cons.2 ⟨hown, h.own⟩
  converted := List.forall_mem_cons.2 ⟨⟨v, hv⟩, h.converted⟩

theorem long_spelled {d : Declaration Setting} (hf : d.option.isFlag = true) :
    Spells (Usage.long d).option (Usage.long d).tokens (Usage.long d).text := .longFlag hf

theorem hugeOption_lt (hugeSize : Nat) : (hugePageOptions.lookup hugeSize).getD 0 < 2 ^ 32 := by
  cases h : hugePageOptions.lookup hugeSize with
  | none => decide
  | some option =>
    obtain ⟨l₁, l₂, hl, -⟩ := List.lookup_eq_some_iff.1 h
    have hmem : (hugeSize, option) ∈ hugePageOptions :=
      hl ▸ List.mem_append_right l₁ List.mem_cons_self
    simp only [hugePageOptions, List.mem_cons, Prod.mk.injEq, List.not_mem_nil, or_false] at hmem
    rw [Option.getD_some]
    omega

theorem reads_huge (ht : t = .latency ∨ t = .latencyBandwidth) (hname : testingType name = some t)
    (numa : NumaConfig) (hugeSize : Nat) (huge : Bool) :
    Benchmark.Reads t numa ⟨name, hugeOptions hugeSize, huge⟩
      [patternUsage, hugepageUsage ((hugePageOptions.lookup hugeSize).getD 0)] := by
  have hassign := (IntType.assign_toString (t := uint32) rfl (by decide)
    ((hugePageOptions.lookup hugeSize).getD 0) _).2 ⟨hugeOption_lt hugeSize, rfl⟩
  have hlast : Benchmark.Reads t numa
      ⟨name, ["-H", toString ((hugePageOptions.lookup hugeSize).getD 0)] ++ [], huge⟩
        [hugepageUsage ((hugePageOptions.lookup hugeSize).getD 0)] := by
    apply (Benchmark.Reads.nil hname).cons rfl 9
    · rcases ht with rfl | rfl
      · rfl
      · rfl
    · exact short_spelled rfl rfl (toString_not_dashes _)
    · exact show Setting.useHugepage ∉ generic by decide
    · exact List.not_mem_nil
    · exact hassign
  have hpattern : patternUsage.option.assign patternUsage.text = .ok 2 := rfl
  have htokens : ["-p", "2"].map String.toList = patternUsage.tokens := rfl
  refine hlast.cons htokens 6 ?_ ?_ ?_ ?_ hpattern
  · rcases ht with rfl | rfl
    · rfl
    · rfl
  · exact short_spelled rfl rfl (by decide)
  · decide
  · rw [List.map_singleton, List.mem_singleton]
    exact Setting.noConfusion

theorem Benchmark.Reads.withMatrix (h : Benchmark.Reads .latency numa ⟨name, options, huge⟩ extra)
    (hnew : Setting.latencyMatrix ∉ extra.map (·.option.target)) (matrices : Bool) :
    Benchmark.Reads .latency numa ⟨name, matrixOptions matrices ++ options, huge⟩
      (matrixUsages matrices ++ extra) := by
  cases matrices with
  | false => exact h
  | true =>
    have hlong := long_spelled (d := .flag "latency_matrix".toList .latencyMatrix) rfl
    have hv : latencyMatrixUsage.option.assign latencyMatrixUsage.text = .ok 1 := rfl
    have htokens : ["--latency_matrix"].map String.toList = latencyMatrixUsage.tokens := rfl
    exact h.cons htokens 10 rfl hlong (by decide) hnew hv

theorem Benchmark.Reads.withMix (hv : uint32.assign mix.toList = .ok v)
    (ht : mix.toList.take 2 ≠ dashes) (numa : NumaConfig) (huge : Bool) :
    Benchmark.Reads .bandwidth numa ⟨"cpu_peak_bandwidth", ["--bandwidth_matrix", "-m", mix], huge⟩
      [bandwidthMatrixUsage, mixUsage mix] := by
  have hmix : Benchmark.Reads .bandwidth numa ⟨"cpu_peak_bandwidth", ["-m", mix] ++ [], huge⟩
      [mixUsage mix] := by
    apply (Benchmark.Reads.nil rfl).cons rfl 6 rfl
    · exact short_spelled rfl rfl ht
    · exact show Setting.readWriteMix ∉ generic by decide
    · exact List.not_mem_nil
    · exact hv
  have hlong := long_spelled (d := .flag "bandwidth_matrix".toList .bandwidthMatrix) rfl
  have hflag : bandwidthMatrixUsage.option.assign bandwidthMatrixUsage.text = .ok 1 := rfl
  have htokens : ["--bandwidth_matrix"].map String.toList = bandwidthMatrixUsage.tokens := rfl
  refine hmix.cons htokens 7 rfl hlong (by decide) ?_ hflag
  rw [List.map_singleton, List.mem_singleton]
  exact Setting.noConfusion

theorem reads_fragment (numa : NumaConfig) (huge : Bool) :
    Benchmark.Reads .memcpy numa ⟨"cpu_memcpy", ["-f", "16384"], huge⟩ [fragmentUsage] := by
  have hv : fragmentUsage.option.assign fragmentUsage.text = .ok 16384 := rfl
  have htokens : ["-f", "16384"].map String.toList = fragmentUsage.tokens := rfl
  apply (Benchmark.Reads.nil rfl).cons htokens 6 rfl
  · exact short_spelled rfl rfl (by decide)
  · decide
  · exact List.not_mem_nil
  · exact hv

/-- The numbers the runner forwards fit every binary it has selected. -/
structure Acceptable (args : Args) : Prop where
  duration : args.targetDuration.1 < 2 ^ 32
  threads : args.selected.contains .bandwidth = true ∨
    args.selected.contains .loadedLatency = true → ∀ n ∈ args.numThreads, n.1 < 2 ^ 32
  region : ∀ n ∈ args.regionSize, n.1 < 2 ^ 64
  fragments : args.selected.contains .bandwidth = true → FragmentFits args

theorem Acceptable.forwardable (h : Acceptable args)
    (hname : name ≠ "cpu_idle_latency" → args.selected.contains .bandwidth = true ∨
      args.selected.contains .loadedLatency = true) : Forwardable args name :=
  ⟨h.duration, fun hne => h.threads (hname hne), h.region⟩

theorem testPlan_reads (numa : NumaConfig) (hb : b ∈ testPlan tests matrices hugeSize) :
    ∃ t extra, b.Reads t numa extra ∧ (t = .memcpy →
      tests.contains .bandwidth = true ∧ (extra = [] ∨ extra = [fragmentUsage])) := by
  have hnil : Benchmark.Reads .latency numa ⟨"cpu_idle_latency", [], false⟩ [] := .nil rfl
  have hname : testingType "cpu_idle_latency" = some .latency := rfl
  have hnew : Setting.latencyMatrix ∉ [Setting.accessPattern, .useHugepage] := by decide
  have hzero : uint32.assign "0".toList = .ok 0 := rfl
  have hone : uint32.assign "1".toList = .ok 1 := rfl
  rcases mem_testPlan.1 hb with ⟨-, rfl | ⟨-, rfl⟩⟩ |
    ⟨hsel, rfl | ⟨-, mix, rfl | rfl, rfl⟩ | rfl | rfl⟩ | ⟨-, rfl | ⟨-, rfl⟩⟩
  · have hplain := hnil.withMatrix List.not_mem_nil matrices
    rw [List.append_nil] at hplain
    exact ⟨_, _, hplain, nofun⟩
  · exact ⟨_, _, (reads_huge (.inl rfl) hname numa hugeSize true).withMatrix hnew matrices, nofun⟩
  · exact ⟨_, _, .nil (t := .bandwidth) rfl, nofun⟩
  · exact ⟨_, _, .withMix hzero (by decide) numa false, nofun⟩
  · exact ⟨_, _, .withMix hone (by decide) numa false, nofun⟩
  · exact ⟨_, _, .nil (t := .memcpy) rfl, fun _ => ⟨hsel, .inl rfl⟩⟩
  · exact ⟨_, _, reads_fragment numa false, fun _ => ⟨hsel, .inr rfl⟩⟩
  · exact ⟨_, _, .nil (t := .latencyBandwidth) rfl, nofun⟩
  · exact ⟨_, _, reads_huge (.inr rfl) rfl numa hugeSize true, nofun⟩

theorem accepted_forwardable (hb : b ∈ testPlan tests matrices hugeSize)
    (h : b.accepted m args numa = true) : Forwardable args b.name := by
  obtain ⟨t, extra, hreads, -⟩ := testPlan_reads numa hb
  exact ((hreads.accepted_iff m args).1 h).1

theorem Acceptable.accepts (h : Acceptable args) (m : Machine) (numa : NumaConfig)
    (hb : b ∈ testPlan args.selected matrices hugeSize) : b.accepted m args numa = true := by
  have hF : Forwardable args b.name := by
    apply h.forwardable
    intro hne
    rcases mem_testPlan.1 hb with ⟨-, rfl | ⟨-, rfl⟩⟩ | ⟨hsel, -⟩ | ⟨hsel, -⟩
    · exact absurd rfl hne
    · exact absurd rfl hne
    · exact .inl hsel
    · exact .inr hsel
  obtain ⟨t, extra, hreads, hcopies⟩ := testPlan_reads numa hb
  refine (hreads.accepted_iff m args).2 ⟨hF, fun ht => ?_⟩
  obtain ⟨hsel, rfl | rfl⟩ := hcopies ht
  · exact ht ▸ memcpy_whole (ht ▸ hreads) hF (h.fragments hsel)
  · exact ht ▸ (memcpy_fragments (ht ▸ hreads) hF).2 (h.fragments hsel)

theorem Args.selected_some (args : Args) : args.selected.contains .idleLatency = true ∨
    args.selected.contains .bandwidth = true ∨ args.selected.contains .loadedLatency = true := by
  have hmem : ∃ test, test ∈ args.selected := by
    rw [Args.selected]
    split
    · exact ⟨_, List.mem_cons_self⟩
    · next hne => exact List.exists_mem_of_ne_nil _ hne
  obtain ⟨test, htest⟩ := hmem
  have hcontains := List.contains_iff_mem.2 htest
  cases test with
  | idleLatency => exact .inl hcontains
  | bandwidth => exact .inr (.inl hcontains)
  | loadedLatency => exact .inr (.inr hcontains)

/-- The ordinary command of each test says what its numbers must be. -/
theorem acceptable_of (m : Machine) (numa : NumaConfig)
    (h : ∀ b ∈ testPlan args.selected matrices hugeSize, b.accepted m args numa = true) :
    Acceptable args := by
  have hforward : ∀ b ∈ testPlan args.selected matrices hugeSize, Forwardable args b.name :=
    fun b hb => accepted_forwardable hb (h b hb)
  have hmemcpy : args.selected.contains .bandwidth = true → Forwardable args "cpu_memcpy" :=
    fun hsel => hforward _ (mem_testPlan.2 (.inr (.inl ⟨hsel, .inr (.inr (.inl rfl))⟩)))
  have hloaded : args.selected.contains .loadedLatency = true →
      Forwardable args "cpu_loaded_latency" :=
    fun hsel => hforward _ (mem_testPlan.2 (.inr (.inr ⟨hsel, .inl rfl⟩)))
  have hany : ∃ name, Forwardable args name := by
    rcases args.selected_some with hsel | hsel | hsel
    · exact ⟨_, hforward _ (mem_testPlan.2 (.inl ⟨hsel, .inl rfl⟩))⟩
    · exact ⟨_, hmemcpy hsel⟩
    · exact ⟨_, hloaded hsel⟩
  obtain ⟨name, hduration, -, hregion⟩ := hany
  refine ⟨hduration, ?_, hregion, fun hsel => ?_⟩
  · rintro (hsel | hsel)
    · exact (hmemcpy hsel).2.1 (by decide)
    · exact (hloaded hsel).2.1 (by decide)
  · have hmem : (⟨"cpu_memcpy", ["-f", "16384"], false⟩ : Benchmark) ∈
        testPlan args.selected matrices hugeSize :=
      mem_testPlan.2 (.inr (.inl ⟨hsel, .inr (.inr (.inr rfl))⟩))
    have hreads := reads_fragment numa false
    obtain ⟨hF, hfits⟩ := (hreads.accepted_iff m args).1 (h _ hmem)
    exact (memcpy_fragments hreads hF).1 (hfits rfl)

/-- The binaries accept every command the runner makes of its arguments if and only if the numbers
in them fit the binaries' own types and fragments of 16 KiB fit the region to copy. -/
theorem commands_accepted_iff (m : Machine) (args : Args) (numa : NumaConfig) (matrices : Bool)
    (hugeSize : Nat) (h : HugeSize hugeSize) :
    (∀ env privileged, runTests env m args args.selected matrices hugeSize privileged =
      Script.forEach (testPlan args.selected matrices hugeSize)
        (Benchmark.run env m args privileged)) ∧
    ((∀ b ∈ testPlan args.selected matrices hugeSize, b.accepted m args numa = true) ↔
      Acceptable args) :=
  ⟨fun _ _ => runTests_plan h args.selected matrices, acceptable_of m numa,
    fun hargs _ hb => hargs.accepts m numa hb⟩

/-- With `--region-size 1024` and pages of 2 MiB all tests get commands their binaries accept. -/
theorem commands_accepted_iff_default :
    let m : Machine := ⟨true, true, false, false, 8, fun _ => true, id, [⟨0, none, []⟩]⟩
    let args : Args := ⟨⟨2, by decide⟩, [], some ⟨4, by decide⟩, some ⟨1024, by decide⟩, false,
      .auto, false, false, false, false⟩
    let numa : NumaConfig := ⟨1, 8, List.range 8, fun _ => 0, fun _ => [], fun _ => []⟩
    ∀ b ∈ testPlan args.selected true 2048, b.accepted m args numa = true := by
  intro m args numa
  refine (commands_accepted_iff m args numa true 2048 (.inr rfl)).2.2 ⟨by decide, ?_, ?_, ?_⟩
  · rintro - n hn
    cases hn
    decide
  · rintro n hn
    cases hn
    decide
  · rintro - n hn
    cases hn
    decide

/-- A region of 8 KiB passes the checks of the runner, and `cpu_memcpy` refuses it. -/
theorem small_region_refused :
    let m : Machine := ⟨true, true, false, false, 8, fun _ => true, id, [⟨0, none, []⟩]⟩
    let args : Args := ⟨⟨2, by decide⟩, [.bandwidth], none, some ⟨8, by decide⟩, false, .auto,
      false, false, false, false⟩
    let numa : NumaConfig := ⟨1, 8, List.range 8, fun _ => 0, fun _ => [], fun _ => []⟩
    checkArguments m args = .ok () ∧
      ∃ b ∈ testPlan args.selected true 0, b.accepted m args numa = false := by
  intro m args numa
  refine ⟨by decide, ⟨"cpu_memcpy", ["-f", "16384"], false⟩, by decide, by decide +kernel⟩

end MmMem

import MmMem.CommandLineRoundTrip
import MmMem.SuiteMeaning

namespace MmMem
open Prog
set_option autoImplicit true

/-- The members of a configuration as the options see them; no option is left of `help`. -/
def Configuration.toStore (config : Configuration) : Setting → Int
  | .help => 0
  | .targetDurationS => config.targetDurationS.toNat
  | .numThreads => config.numThreads.toNat
  | .regionSizeKb => config.regionSizeKb.toNat
  | .noBinding => config.noBinding.toInt
  | .verbose => config.verbose.toInt
  | .branchCase => config.branchCase.toNat
  | .accessPattern => config.accessPattern.toNat
  | .chunkSizeKb => config.chunkSizeKb.toNat
  | .strideSizeB => config.strideSizeB.toNat
  | .useHugepage => config.useHugepage.toNat
  | .latencyMatrix => config.latencyMatrix.toInt
  | .readWriteMix => config.readWriteMix.toNat
  | .loadGenDelay => config.loadGenDelay.toInt
  | .bandwidthMatrix => config.bandwidthMatrix.toInt
  | .fragmentSizeB => config.fragmentSizeB.toNat
  | .memcpyMatrix => config.memcpyMatrix.toInt

/-- The values a member can hold. -/
def Setting.Holds (n : Int) : Setting → Prop
  | .regionSizeKb | .fragmentSizeB => uint64.Holds n
  | .loadGenDelay => int32.Holds n
  | .help | .noBinding | .verbose | .latencyMatrix | .bandwidthMatrix | .memcpyMatrix =>
    n = 0 ∨ n = 1
  | _ => uint32.Holds n

theorem uint32_toNat_ofInt (h : uint32.Holds n) : ((UInt32.ofInt n).toNat : Int) = n := by
  obtain ⟨k, hk, rfl⟩ := (IntType.holds_iff rfl).1 h
  rw [uint32_ofInt, UInt32.toNat_ofNat_of_lt' hk]

theorem uint64_toNat_ofInt (h : uint64.Holds n) : ((UInt64.ofInt n).toNat : Int) = n := by
  obtain ⟨k, hk, rfl⟩ := (IntType.holds_iff rfl).1 h
  rw [uint64_ofInt, UInt64.toNat_ofNat_of_lt' hk]

theorem int32_toInt_ofInt (h : int32.Holds n) : (Int32.ofInt n).toInt = n :=
  Int32.toInt_ofInt_of_le h.1 (Int.lt_of_le_sub_one h.2)

theorem toInt_bne (h : n = 0 ∨ n = 1) : (n != 0).toInt = n := by
  rcases h with rfl | rfl <;> rfl

theorem Configuration.toStore_holds (config : Configuration) (x : Setting) :
    x.Holds (config.toStore x) := by
  have hbool : ∀ b : Bool, b.toInt = 0 ∨ b.toInt = 1 := by decide
  cases x with
  | help => exact .inl rfl
  | regionSizeKb => exact (IntType.holds_iff rfl).2 ⟨_, config.regionSizeKb.toNat_lt, rfl⟩
  | fragmentSizeB => exact (IntType.holds_iff rfl).2 ⟨_, config.fragmentSizeB.toNat_lt, rfl⟩
  | loadGenDelay =>
    exact ⟨config.loadGenDelay.le_toInt, Int.le_sub_one_of_lt config.loadGenDelay.toInt_lt⟩
  | noBinding | verbose | latencyMatrix | bandwidthMatrix | memcpyMatrix => exact hbool _
  | _ => exact (IntType.holds_iff rfl).2 ⟨_, UInt32.toNat_lt _, rfl⟩

theorem Configuration.ofStore_toStore (config : Configuration) :
    Configuration.ofStore config.toStore = config := by
  have hbool : ∀ b : Bool, (b.toInt != 0) = b := by decide
  simp only [Configuration.ofStore, Configuration.toStore, hbool, uint32_ofInt, uint64_ofInt,
    UInt32.ofNat_toNat, UInt64.ofNat_toNat, Int32.ofInt_toInt]

theorem toStore_ofStore {store : Setting → Int} (h : ∀ x : Setting, x.Holds (store x))
    (hhelp : store .help = 0) : (Configuration.ofStore store).toStore = store := by
  funext x
  have hx := h x
  cases x with
  | help => exact hhelp.symm
  | regionSizeKb | fragmentSizeB => exact uint64_toNat_ofInt hx
  | loadGenDelay => exact int32_toInt_ofInt hx
  | noBinding | verbose | latencyMatrix | bandwidthMatrix | memcpyMatrix => exact toInt_bne hx
  | _ => exact uint32_toNat_ofInt hx

variable {t : TestingType} {numa : NumaConfig} {config : Configuration}

theorem options_sized (t : TestingType) (numa : NumaConfig) :
    ∀ d ∈ Configuration.options t numa, d.Sized := by
  have h32 : 1 ≤ uint32.bits ∧ uint32.bits ≤ 64 := by decide
  have h64 : 1 ≤ uint64.bits ∧ uint64.bits ≤ 64 := by decide
  have hint : 1 ≤ int32.bits ∧ int32.bits ≤ 64 := by decide
  cases t <;>
    simp [Configuration.options, addGenericOptions, addLatencyOptions, addBandwidthOptions,
      addMemcpyOptions, Declaration.Sized, h32, h64, hint]

theorem options_holds (t : TestingType) (numa : NumaConfig) :
    ∀ d ∈ Configuration.options t numa, ∀ n, d.Holds n ↔ d.target.Holds n := by
  cases t <;>
    simp [Configuration.options, addGenericOptions, addLatencyOptions, addBandwidthOptions,
      addMemcpyOptions, Declaration.Holds, Declaration.target, Setting.Holds]

theorem Setting.initial_holds (x : Setting) : x.Holds x.initial := by
  cases x with
  | help | noBinding | verbose | latencyMatrix | bandwidthMatrix | memcpyMatrix => exact .inl rfl
  | _ => exact ⟨by decide, by decide⟩

/-- The members that no option of the program is bound to have their initializers. -/
def Configuration.Bound (t : TestingType) (numa : NumaConfig) (config : Configuration) : Prop :=
  ∀ x, (∀ d ∈ Configuration.options t numa, d.target ≠ x) → config.toStore x = x.initial

/-- The arguments that ask for a configuration. -/
def Configuration.arguments (t : TestingType) (numa : NumaConfig) (config : Configuration) :
    List Text :=
  MmMem.arguments (Configuration.options t numa) config.toStore

theorem Configuration.expressible_iff :
    Expressible (Configuration.options t numa) Setting.initial config.toStore ↔
      config.Bound t numa := by
  refine ⟨fun h => h.others, fun h => ⟨fun d hd => ?_, h⟩⟩
  exact (options_holds t numa d hd _).2 (config.toStore_holds d.target)

theorem Expressible.holds_all {store : Setting → Int}
    (h : Expressible (Configuration.options t numa) Setting.initial store) (x : Setting) :
    x.Holds (store x) := by
  by_cases hx : ∃ d ∈ Configuration.options t numa, d.target = x
  · obtain ⟨d, hd, rfl⟩ := hx
    exact (options_holds t numa d hd _).1 (h.holds d hd)
  · rw [h.others x fun d hd htarget => hx ⟨d, hd, htarget⟩]
    exact x.initial_holds

theorem Configuration.autoCorrect_idem (config : Configuration) :
    config.autoCorrect.autoCorrect = config.autoCorrect := by
  by_cases h : config.useHugepage > 0
  · simp only [Configuration.autoCorrect, if_pos h]
  · simp only [Configuration.autoCorrect, if_neg h]

/-- Only programs with an option for huge pages correct their chunks, and these have an option for
chunks. -/
theorem Configuration.Bound.autoCorrect (h : config.Bound t numa) :
    config.autoCorrect.Bound t numa := by
  intro x hx
  have hkept := h x hx
  by_cases hpages : config.useHugepage > 0
  · rw [Configuration.autoCorrect, if_pos hpages]
    cases x with
    | chunkSizeKb =>
      have hunbound : ∀ d ∈ Configuration.options t numa, d.target ≠ .useHugepage := by
        revert hx
        cases t <;>
          simp [Configuration.options, addGenericOptions, addLatencyOptions, addBandwidthOptions,
            addMemcpyOptions, Declaration.target]
      have hzero : (config.useHugepage.toNat : Int) = 0 := h .useHugepage hunbound
      exact absurd (UInt32.lt_iff_toNat_lt.1 hpages) (by simp only [UInt32.toNat_zero]; omega)
    | _ => exact hkept
  · rwa [Configuration.autoCorrect, if_neg hpages]

theorem Configuration.parse_arguments (h : config.Bound t numa) (name : Text) :
    Configuration.parseOptions t numa (name :: config.arguments t numa) =
      .done (.ok config.autoCorrect) := by
  have hparse := parse_writtenOut (options_table t numa) (options_dash t numa)
    (options_sized t numa) (Configuration.expressible_iff.2 h) name
  have hhelp : ¬ config.toStore .help ≠ 0 := not_not.2 rfl
  simp only [Configuration.parseOptions, Configuration.arguments, hparse]
  rw [if_neg hhelp, Configuration.ofStore_toStore]

theorem Configuration.bound_of_parse {argv : List Text}
    (hp : Configuration.parseOptions t numa argv = .done (.ok config)) :
    ∃ raw : Configuration, raw.Bound t numa ∧ config = raw.autoCorrect := by
  rw [Configuration.parseOptions] at hp
  split at hp
  · cases hp
  · cases hp
  · cases hp
  · next store hstore =>
    split at hp
    · cases hp
    · next hhelp =>
      obtain ⟨usages, hs, hassign⟩ :=
        sentence_of_parse (options_table t numa) (options_dash t numa) hstore
      have hexpr : Expressible (Configuration.options t numa) Setting.initial store :=
        hassign ▸ assignAll_expressible (options_table t numa) (options_sized t numa) hs
      refine ⟨.ofStore store, ?_, (Except.ok.inj (Run.done.inj hp)).symm⟩
      rw [← Configuration.expressible_iff, toStore_ofStore hexpr.holds_all (not_not.1 hhelp)]
      exact hexpr

/-- Each program can be asked for every configuration whose members outside its options have their
initializers, and returns it with the chunks of huge pages corrected; and whatever it parses, the
arguments written for the result give the same result again. -/
theorem configuration_round_trip (t : TestingType) (numa : NumaConfig) (name : Text) :
    (∀ config : Configuration, config.Bound t numa →
      Configuration.parseOptions t numa (name :: config.arguments t numa) =
        .done (.ok config.autoCorrect)) ∧
    ∀ argv config, Configuration.parseOptions t numa argv = .done (.ok config) →
      config.Bound t numa ∧ config.autoCorrect = config ∧
        Configuration.parseOptions t numa (name :: config.arguments t numa) =
          .done (.ok config) := by
  refine ⟨fun config h => Configuration.parse_arguments h name, fun argv config hp => ?_⟩
  obtain ⟨raw, hraw, rfl⟩ := Configuration.bound_of_parse hp
  have hsame := raw.autoCorrect_idem
  refine ⟨hraw.autoCorrect, hsame, ?_⟩
  rw [Configuration.parse_arguments hraw.autoCorrect, hsame]

/-- A negative delay on huge pages: the chunks are corrected on the way. -/
theorem configuration_round_trip_delay :
    let numa : NumaConfig := ⟨1, 4, [0, 1, 2, 3], fun _ => 0, fun _ => [], fun _ => []⟩
    let config : Configuration :=
      { Configuration.byDefault .latencyBandwidth numa with loadGenDelay := -7, useHugepage := 1 }
    Configuration.parseOptions .latencyBandwidth numa
      ("test".toList :: config.arguments .latencyBandwidth numa) =
        .done (.ok { config with chunkSizeKb := 131072 }) := by
  intro numa config
  have hbound : config.Bound .latencyBandwidth numa := by
    intro x hx
    have hmem : ∀ (i : Nat) (d : Declaration Setting),
        (Configuration.options .latencyBandwidth numa)[i]? = some d →
        d.target ≠ x := fun i d hd => hx d (List.mem_of_getElem? hd)
    cases x with
    | branchCase | latencyMatrix | bandwidthMatrix | fragmentSizeB | memcpyMatrix => rfl
    | help => exact absurd rfl (hmem 0 _ rfl)
    | targetDurationS => exact absurd rfl (hmem 1 _ rfl)
    | numThreads => exact absurd rfl (hmem 2 _ rfl)
    | regionSizeKb => exact absurd rfl (hmem 3 _ rfl)
    | noBinding => exact absurd rfl (hmem 4 _ rfl)
    | verbose => exact absurd rfl (hmem 5 _ rfl)
    | accessPattern => exact absurd rfl (hmem 6 _ rfl)
    | chunkSizeKb => exact absurd rfl (hmem 7 _ rfl)
    | strideSizeB => exact absurd rfl (hmem 8 _ rfl)
    | useHugepage => exact absurd rfl (hmem 9 _ rfl)
    | readWriteMix => exact absurd rfl (hmem 10 _ rfl)
    | loadGenDelay => exact absurd rfl (hmem 11 _ rfl)
  exact (configuration_round_trip .latencyBandwidth numa "test".toList).1 config hbound

end MmMem

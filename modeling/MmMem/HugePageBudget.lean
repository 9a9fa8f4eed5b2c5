import MmMem.SuiteMeaning
import MmMem.RunnerTrace
import MmMem.RequestedGeometry

namespace MmMem
open Prog
set_option autoImplicit true

/-- `real_size_`: the size in whole pages. -/
def realSize (hugepageType : Int) (size : Nat) : Nat :=
  if hugepageType > 0 then
    let padding := if size % 2 ^ hugepageSizeLog2 hugepageType > 0 then 1 else 0
    u64 ((size / 2 ^ hugepageSizeLog2 hugepageType + padding) * 2 ^ hugepageSizeLog2 hugepageType)
  else size

/-- The bytes of huge pages a region is mapped to. -/
def MemRegion.Arguments.hugeBytes (a : MemRegion.Arguments) : Nat :=
  if a.hugepageType > 0 then realSize a.hugepageType a.size else 0

/-- The arguments of the constructor call in `mem_region_alloc_bw`. -/
def bwRegionArguments (pkt : MemLatBwThreadPacket) : MemRegion.Arguments where
  size := (pkt.regionSizeKb * 1024).toNat
  pageSize := 4096
  lineSize := 64
  memType := pkt.memType.toInt
  hugepageType := 0

/-- Those of both calls in `mem_region_alloc_memcpy`. -/
def memcpyRegionArguments (pkt : MemLatBwThreadPacket) : MemRegion.Arguments where
  size := (pkt.regionSizeKb * 1024).toNat
  pageSize := 4096
  lineSize := 64
  memType := 0
  hugepageType := 0

/-- The regions a worker allocates before it is measured. -/
def TestingType.regions (t : TestingType) (pkt : MemLatBwThreadPacket) :
    List MemRegion.Arguments :=
  match t with
  | .latency => [latRegionArguments pkt]
  | .bandwidth => [bwRegionArguments pkt]
  | .latencyBandwidth =>
    if pkt.threadId = 0 then [latRegionArguments pkt] else [bwRegionArguments pkt]
  | .memcpy => [memcpyRegionArguments pkt, memcpyRegionArguments pkt]
  | .branchThroughput => []

/-- The bytes of huge pages that the workers of one manager hold between them. -/
def hugeBytes (t : TestingType) (config : Configuration) (node : Int32) (numThreads : UInt32) :
    Nat :=
  ((List.range numThreads.toNat).flatMap fun i =>
    (t.regions (prepareMemLatBwThreadPacket config node numThreads (.ofNat i))).map
      MemRegion.Arguments.hugeBytes).sum

/-- The `try` block as far as its call number `k`. -/
def tryBlockUpTo (env : Env HostPath) (m : Machine) (args : Args) (matrices : Bool)
    (autonuma : Option Int) (privilege : Option (List String)) (k : Nat) :
    Program HostPath (Nat × Option (List String)) := do
  boundary env
  let (hugeSize, privileged) ← configureHost env m args autonuma privilege
  boundary env
  Script.forEach ((testPlan args.selected matrices hugeSize).take k)
    (Benchmark.run env m args privileged)
  return (hugeSize, privileged)

/-- Each eligible node has 1 GiB in pages of this size. -/
def Reserved (nodes : List NumaNode) (size : Nat) (files : HostPath → Int) : Prop :=
  size ∣ 1024 ^ 2 ∧ ∀ node ∈ nodes, ∀ kib, node.Eligible kib →
    (1024 ^ 2 / size : Nat) ≤ files (.nrHugepages node.nid size)

/-- The pool of each eligible node holds the huge pages of all workers of a manager. -/
def Suffices (nodes : List NumaNode) (size : Nat) (files : HostPath → Int)
    (e : TestingType × Configuration) : Prop :=
  ∀ numThreads ≤ e.2.numThreads, ∀ memNode : Int32, ∀ node ∈ nodes, ∀ kib, node.Eligible kib →
    hugeBytes e.1 e.2 memNode numThreads ≤ files (.nrHugepages node.nid size) * (size * 1024)

variable {env : Env HostPath} {m : Machine} {args : Args} {numa : NumaConfig}
  {nodes : List NumaNode} {files : HostPath → Int} {config : Configuration} {t : TestingType}

theorem memRegionAllocBw_arguments (pkt : MemLatBwThreadPacket) :
    memRegionAllocBw pkt = (bwRegionArguments pkt).construct := rfl

theorem memRegionAllocMemcpy_arguments (pkt : MemLatBwThreadPacket) :
    memRegionAllocMemcpy pkt = (memcpyRegionArguments pkt).construct >>= fun dst =>
      (memcpyRegionArguments pkt).construct >>= fun src => .done (dst, src) := rfl

theorem wholePages_le (h : size ≤ count * page) :
    size / page + (if size % page > 0 then 1 else 0) ≤ count := by
  have hdiv := Nat.div_add_mod' size page
  split
  · next hrest =>
    refine Nat.div_lt_of_lt_mul (Nat.lt_of_le_of_ne ?_ ?_)
    · exact Nat.mul_comm count page ▸ h
    · rintro rfl
      rw [Nat.mul_mod_right] at hrest
      exact absurd hrest (Nat.lt_irrefl 0)
  · exact Nat.div_le_of_le_mul (Nat.mul_comm count page ▸ h)

theorem realSize_le (hpos : hugepageType > 0)
    (h : size ≤ count * 2 ^ hugepageSizeLog2 hugepageType) :
    realSize hugepageType size ≤ count * 2 ^ hugepageSizeLog2 hugepageType := by
  rw [realSize, if_pos hpos]
  apply Nat.le_trans (Nat.mod_le _ _)
  exact Nat.mul_le_mul_right _ (wholePages_le h)

/-- Of the workers at most the first has a share. -/
theorem sum_flatMap_range_le {f : Nat → List Nat} (hfirst : (f 0).sum ≤ bound)
    (hothers : ∀ i, 0 < i → i < n → (f i).sum = 0) :
    ((List.range n).flatMap f).sum ≤ bound := by
  induction n with
  | zero => exact Nat.zero_le bound
  | succ n ih =>
    rw [List.range_succ, List.flatMap_append, List.sum_append, List.flatMap_singleton]
    rcases Nat.eq_zero_or_pos n with rfl | hn
    · rw [List.range_zero, List.flatMap_nil, List.sum_nil, Nat.zero_add]
      exact hfirst
    · rw [hothers n hn (Nat.lt_succ_self n), Nat.add_zero]
      exact ih fun i hi hin => hothers i hi (Nat.lt_succ_of_lt hin)

/-- The huge pages of the region of one latency worker. -/
def Configuration.latencyHugeBytes (config : Configuration) : Nat :=
  if config.useHugepage.toInt32.toInt > 0 then
    realSize config.useHugepage.toInt32.toInt (config.regionSizeKb * 1024).toNat
  else 0

theorem loaded_regions {pkt : MemLatBwThreadPacket} (h : pkt.threadId ≠ 0) :
    (TestingType.latencyBandwidth.regions pkt).map MemRegion.Arguments.hugeBytes = [0] := by
  rw [TestingType.regions, if_neg h]
  rfl

theorem hugeBytes_le (t : TestingType) (hthreads : t = .latency → config.numThreads = 1)
    {numThreads : UInt32} (hn : numThreads ≤ config.numThreads) (memNode : Int32) :
    hugeBytes t config memNode numThreads ≤ config.latencyHugeBytes := by
  apply sum_flatMap_range_le
  · cases t with
    | latency => exact Nat.le_of_eq (List.sum_singleton ..)
    | bandwidth => exact Nat.zero_le _
    | latencyBandwidth => exact Nat.le_of_eq (List.sum_singleton ..)
    | memcpy => exact Nat.zero_le _
    | branchThroughput => exact Nat.zero_le _
  · intro i hpos hi
    cases t with
    | latency =>
      have hone : numThreads.toNat ≤ (1 : UInt32).toNat :=
        hthreads rfl ▸ UInt32.le_iff_toNat_le.1 hn
      have hi : i < 1 := Nat.lt_of_lt_of_le hi hone
      omega
    | bandwidth => rfl
    | latencyBandwidth =>
      have hid : UInt32.ofNat i ≠ 0 := by
        intro hzero
        have htoNat := congrArg UInt32.toNat hzero
        rw [UInt32.toNat_ofNat', Nat.mod_eq_of_lt (Nat.lt_trans hi numThreads.toNat_lt)] at htoNat
        exact Nat.ne_of_gt hpos htoNat
      rw [loaded_regions hid]
      rfl
    | memcpy => rfl
    | branchThroughput => rfl

theorem withHugePages_base {e : TestingType × Configuration}
    (he : e ∈ withHugePages t config hugeSize) : e.1 = t ∧
      e.2.regionSizeKb = config.regionSizeKb ∧ e.2.numThreads = config.numThreads := by
  rw [withHugePages, List.mem_cons] at he
  rcases he with rfl | he
  · exact ⟨rfl, rfl, rfl⟩
  split at he
  · exact absurd he List.not_mem_nil
  · obtain rfl := List.mem_singleton.1 he
    exact ⟨rfl, rfl, rfl⟩

/-- The regions and the threads of a measurement are those its caller asks for. -/
theorem measurements_base {e : TestingType × Configuration}
    (he : e ∈ args.measurements numa matrices hugeSize) :
    let base := args.configure e.1 (.byDefault e.1 numa)
    e.2.regionSizeKb = base.regionSizeKb ∧ e.2.numThreads = base.numThreads := by
  rw [Args.measurements, List.mem_append, List.mem_append, List.mem_ite_nil_right,
    List.mem_ite_nil_right, List.mem_ite_nil_right] at he
  rcases he with (⟨-, he⟩ | ⟨-, he⟩) | ⟨-, he⟩
  · obtain ⟨ht, he⟩ := withHugePages_base he
    rw [ht]
    exact he
  · simp only [Args.bandwidthMeasurements, List.mem_append, List.mem_ite_nil_right, List.mem_map,
      List.mem_cons, List.not_mem_nil, or_false] at he
    rcases he with rfl | ⟨-, mix, -, rfl⟩ | rfl | rfl
    all_goals exact ⟨rfl, rfl⟩
  · obtain ⟨ht, he⟩ := withHugePages_base he
    rw [ht]
    exact he

theorem configure_region (hregion : ∀ n ∈ args.regionSize, n.1 ≤ 1024 ^ 2) (t : TestingType)
    (numa : NumaConfig) :
    (args.configure t (.byDefault t numa)).regionSizeKb.toNat ≤ 1024 ^ 2 := by
  rw [Args.configure]
  cases hr : args.regionSize with
  | none =>
    have hdefault : (Configuration.byDefault t numa).regionSizeKb =
        if t = .latency then 512 * 1024 else 128 * 1024 := by
      cases t <;> rfl
    change (Configuration.byDefault t numa).regionSizeKb.toNat ≤ _
    rw [hdefault]
    split
    · decide
    · decide
  | some n =>
    have hn := hregion n hr
    change (UInt64.ofNat n.1).toNat ≤ _
    rw [UInt64.toNat_ofNat', Nat.mod_eq_of_lt (by omega)]
    exact hn

theorem latencyHugeBytes_le {e : TestingType × Configuration} (hpages : Measured hugeSize e)
    (hregion : e.2.regionSizeKb.toNat ≤ 1024 ^ 2) (hdvd : hugeSize ∣ 1024 ^ 2) :
    e.2.latencyHugeBytes ≤ 1024 ^ 2 / hugeSize * (hugeSize * 1024) := by
  rw [Configuration.latencyHugeBytes]
  split
  · next hpos =>
    rcases hpages with hzero | ⟨-, -, -, -, hlog⟩
    · rw [hzero] at hpos
      exact absurd hpos (by decide)
    · rw [← hlog]
      apply realSize_le hpos
      rw [hlog, ← Nat.mul_assoc, Nat.div_mul_cancel hdvd, UInt64.toNat_mul]
      apply Nat.le_trans (Nat.mod_le _ _)
      exact Nat.mul_le_mul_right 1024 hregion
  · exact Nat.zero_le _

/-- The share of 1 GiB is enough for every measurement whose regions are no larger. -/
theorem Reserved.suffices (h : Reserved nodes hugeSize files)
    (hregion : ∀ n ∈ args.regionSize, n.1 ≤ 1024 ^ 2) (hsize : HugeSize hugeSize)
    {e : TestingType × Configuration} (he : e ∈ args.measurements numa matrices hugeSize) :
    Suffices nodes hugeSize files e := by
  obtain ⟨hdvd, hshare⟩ := h
  obtain ⟨hsame, hthreads⟩ := measurements_base he
  have hpages := measurements_pages hsize args numa matrices e he
  have hone : e.1 = .latency → e.2.numThreads = 1 := by
    intro ht
    rw [hthreads, ht]
    rfl
  have hle : e.2.regionSizeKb.toNat ≤ 1024 ^ 2 := hsame ▸ configure_region hregion e.1 numa
  intro numThreads hn memNode node hnode kib hkib
  have hbytes := Nat.le_trans (hugeBytes_le e.1 hone hn memNode)
    (latencyHugeBytes_le hpages hle hdvd)
  calc (hugeBytes e.1 e.2 memNode numThreads : Int)
    _ ≤ (1024 ^ 2 / hugeSize * (hugeSize * 1024) : Nat) := by exact_mod_cast hbytes
    _ = (1024 ^ 2 / hugeSize : Nat) * (hugeSize * 1024 : Int) := by push_cast; rfl
    _ ≤ files (.nrHugepages node.nid hugeSize) * (hugeSize * 1024) :=
      Int.mul_le_mul_of_nonneg_right (hshare node hnode kib hkib) (by omega)

theorem Provisioned.reserved (h : Provisioned nodes size drop compact before files)
    (hoffered : Offered nodes size) : Reserved nodes size files := by
  refine ⟨?_, fun node hnode kib hkib => ?_⟩
  · rcases hoffered.1 with rfl | rfl | rfl
    all_goals decide
  · rw [(h.target node hnode kib hkib).2]
    have hle : 1024 ^ 2 / size ≤ min (2 * 1024 ^ 2) kib / size :=
      Nat.div_le_div_right (le_min (by decide) hkib.2)
    exact Int.le_trans (by exact_mod_cast hle) (Int.le_max_right _ _)

/-- Provisioning that returns a size has reserved it, whatever has happened meanwhile. -/
theorem provisionHugePages_reserves (hids : DistinctIds m.nodes) :
    Script.Ensures (fun _ => True) (provisionHugePages env m args) fun size w =>
      size = 0 ∨ Offered m.nodes size ∧ Reserved m.nodes size w.host.files := by
  apply Script.Meets.tryExcept (E := fun _ _ => True)
  · intro w _
    apply (setupHugePages_files env .hugeSettings m.nodes args.dropCaches args.compact
      w.host.files).mono (fun _ hw => hw) ?_ w rfl
    rintro size w' ⟨rfl, hne, f', hagree, hafter⟩
    rcases pickHugePageSize_spec hids with ⟨hzero, -⟩ | ⟨-, hoffered, -⟩
    · exact absurd hzero hne
    · have hprovisioned := Provisioned.of_reserve hids hoffered hagree hafter
      exact .inr ⟨hoffered, hprovisioned.reserved hoffered⟩
  · intro e k hk
    split at hk
    · cases hk
      apply Script.Ensures.bind (Q := fun _ _ => True) (Script.Meets.of_true _)
      exact fun _ => Script.Ensures.pure fun _ _ => .inl rfl
    · cases hk
  · exact fun _ _ _ _ => trivial

theorem configureHost_reserves (hids : DistinctIds m.nodes) (hauto : args.hugepages = .auto)
    (hdry : args.dryRun = false) (autonuma : Option Int) (privilege : Option (List String)) :
    Script.Ensures (fun _ => True) (configureHost env m args autonuma privilege) fun x w =>
      x.1 = 0 ∨ Offered m.nodes x.1 ∧ Reserved m.nodes x.1 w.host.files := by
  rw [configureHost, hdry, if_neg Bool.false_ne_true]
  apply Script.Ensures.bind (Q := fun _ _ => True) (Script.Meets.of_true _)
  intro _
  apply Script.Ensures.bind (Q := fun _ _ => True) (Script.Meets.of_true _)
  intro _
  rw [chosenHugePages]
  split
  · apply (provisionHugePages_reserves hids).bind
    exact fun size => Script.Ensures.pure fun w hw => hw
  split
  · next hexisting =>
    rw [Bool.and_eq_true, beq_iff_eq, hauto] at hexisting
    exact absurd hexisting.2 HugePageMode.noConfusion
  · exact Script.Ensures.pure fun _ _ => .inl rfl

theorem Offered.hugeSize (h : Offered nodes size) : HugeSize size := by
  rcases h.1 with rfl | rfl | rfl
  all_goals exact .inr rfl

theorem suffices_none (args : Args) (numa : NumaConfig) (nodes : List NumaNode)
    (files : HostPath → Int) {e : TestingType × Configuration}
    (he : e ∈ args.measurements numa matrices 0) : Suffices nodes 0 files e := by
  obtain ⟨-, hthreads⟩ := measurements_base he
  have hzero := (measurements_pages (.inl rfl) args numa matrices e he).resolve_right
    fun h => h.1 rfl
  have hone : e.1 = .latency → e.2.numThreads = 1 := by
    intro ht
    rw [hthreads, ht]
    rfl
  intro numThreads hn memNode node _ kib _
  have hbytes := hugeBytes_le e.1 hone hn memNode
  rw [Configuration.latencyHugeBytes, hzero, if_neg (by decide), Nat.le_zero] at hbytes
  rw [hbytes]
  exact Int.le_of_eq (Int.mul_zero _).symm

theorem configureHost_hugeSize {privilege : Option (List String)}
    (haccess : Privileged args privilege)
    (autonuma : Option Int) : Script.Ensures (fun _ => True)
      (configureHost env m args autonuma privilege) fun x _ => HugeSize x.1 := by
  intro w _
  apply ((configureHost_chooses haccess autonuma w.events) w (.refl w)).mono
  · exact fun x _ hx => hx.2.offered
  · exact fun _ _ _ => trivial

/-- The block goes on from its call number `k` with the calls that are left. -/
theorem tryBlock_upTo {privilege : Option (List String)} (haccess : Privileged args privilege)
    (env : Env HostPath) (m : Machine) (matrices : Bool) (autonuma : Option Int) (k : Nat) :
    tryBlock env m args matrices autonuma privilege =
      tryBlockUpTo env m args matrices autonuma privilege k >>= fun x =>
        Script.forEach ((testPlan args.selected matrices x.1).drop k)
          (Benchmark.run env m args x.2) := by
  simp only [tryBlock, tryBlockUpTo, bind_assoc, pure_bind]
  refine congrArg _ (funext fun _ => funext fun w => ?_)
  refine (configureHost_hugeSize haccess autonuma).bind_congr ?_ trivial
  rintro ⟨hugeSize, privileged⟩ w' hsize
  rw [runTests_plan hsize]
  conv_lhs => rw [← List.take_append_drop k (testPlan args.selected matrices hugeSize)]
  rw [Script.forEach_append]

theorem benchmarks_files (privileged : Option (List String)) (plan : List Benchmark)
    (f : HostPath → Int) : Script.Keeps (OnHost fun h => h.files = f)
      (Script.forEach plan (Benchmark.run env m args privileged)) := by
  apply Script.Keeps.forEach
  intro b _
  apply runBenchmark_keeps (fun _ _ hw => hw)
  exact fun _ _ _ hw _ _ => hw

end MmMem

import MmMem.Footprint
import MmMem.LatencyFaults

namespace MmMem
open Prog
set_option autoImplicit true

/-- What a worker hands to the constructor; the whole region is active. -/
structure MemRegion.Arguments where
  size : Nat
  pageSize : Nat
  lineSize : Nat
  memType : Int
  hugepageType : Int
  deriving Repr, DecidableEq

def MemRegion.Arguments.construct (a : MemRegion.Arguments) : Run Fault MemRegion :=
  MemRegion.new a.size a.size a.pageSize a.lineSize a.memType a.hugepageType

/-- The arguments of the constructor call in `mem_region_alloc_lat`. -/
def latRegionArguments (pkt : MemLatBwThreadPacket) : MemRegion.Arguments where
  size := (pkt.regionSizeKb * 1024).toNat
  pageSize := (pkt.chunkSizeKb * 1024).toNat
  lineSize := pkt.strideSizeB.toNat
  memType := pkt.memType.toInt
  hugepageType := pkt.useHugepage.toInt32.toInt

theorem memRegionAllocLat_arguments (rand : Nat → Nat) (fuel : Nat) (pkt : MemLatBwThreadPacket) :
    memRegionAllocLat rand fuel pkt = (latRegionArguments pkt).construct >>= fun r =>
      r.initByPattern pkt.accessPattern rand fuel .zeroed >>= fun m => .done (r, m) := rfl

/-- The sizes are those of the options, as integers; with huge pages the region is one chunk. -/
structure MemRegion.Arguments.AsRequested (a : MemRegion.Arguments) (config : Configuration) :
    Prop where
  region : a.size = config.regionSizeKb.toNat * 1024
  chunk : a.pageSize = config.chunkSizeKb.toNat * 1024
  hugepage : config.useHugepage > 0 → a.pageSize = a.size

/-- The chunk has fewer than 2^22 KiB, and with huge pages the region that replaces it. -/
def Configuration.ChunkFits (config : Configuration) : Prop :=
  if config.useHugepage > 0 then config.regionSizeKb.toNat < 2 ^ 22
  else config.chunkSizeKb.toNat < 2 ^ 22

instance (config : Configuration) : Decidable config.ChunkFits :=
  inferInstanceAs (Decidable (ite _ _ _))

/-- The chunk is the region, and its random order comes by all lines of it. -/
structure MemRegion.SingleChunk (r : MemRegion) : Prop where
  pages : r.numActivePages = 1
  lines : r.numLinesInPage = r.activeSize / r.lineSize
  covered : 8 ≤ r.lineSize → ∀ rand fuel m, r.pageRandomInit rand fuel .zeroed = .done m →
    ∀ o ∈ r.firstLines (r.activeSize / r.lineSize), m.Reachable 0 o

variable {config : Configuration}

theorem Configuration.autoCorrect_chunk (config : Configuration) :
    config.autoCorrect.useHugepage > 0 →
      config.autoCorrect.chunkSizeKb = config.autoCorrect.regionSizeKb.toUInt32 := by
  rw [Configuration.autoCorrect]
  split
  · exact fun _ => rfl
  · next hno => exact fun h => absurd h hno

theorem Configuration.parseOptions_chunk
    (h : Configuration.parseOptions t numa argv = .done (.ok config)) (huge : config.useHugepage > 0) :
    config.chunkSizeKb = config.regionSizeKb.toUInt32 := by
  rw [Configuration.parseOptions] at h
  split at h
  · cases h
  · cases h
  · cases h
  · split at h
    · cases h
    · cases h
      exact autoCorrect_chunk _ huge

theorem chunk_product (chunkSizeKb : UInt32) :
    (chunkSizeKb * 1024).toNat = chunkSizeKb.toNat * 1024 % 2 ^ 32 := UInt32.toNat_mul _ _

theorem chunk_product_iff (chunkSizeKb : UInt32) :
    (chunkSizeKb * 1024).toNat = chunkSizeKb.toNat * 1024 ↔ chunkSizeKb.toNat < 2 ^ 22 := by
  rw [chunk_product]
  omega

/-- Where the product of the region size fits 64 bits, the chunk alone decides. -/
theorem asRequested_iff {pkt : MemLatBwThreadPacket}
    (hpkt : pkt = prepareMemLatBwThreadPacket config node numThreads threadId)
    (hfits : config.regionSizeKb.toNat * 1024 < 2 ^ 64)
    (hchunk : config.useHugepage > 0 → config.chunkSizeKb = config.regionSizeKb.toUInt32) :
    (latRegionArguments pkt).AsRequested config ↔ config.ChunkFits := by
  subst hpkt
  have hregion : (config.regionSizeKb * 1024).toNat = config.regionSizeKb.toNat * 1024 :=
    (UInt64.toNat_mul _ _).trans (Nat.mod_eq_of_lt hfits)
  rw [Configuration.ChunkFits]
  split
  · next huge =>
    have hcast : config.chunkSizeKb.toNat = config.regionSizeKb.toNat % 2 ^ 32 := by
      rw [hchunk huge]
      exact UInt64.toNat_toUInt32 _
    have hproduct := chunk_product config.chunkSizeKb
    constructor
    · intro h
      have hequal : (config.chunkSizeKb * 1024).toNat = (config.regionSizeKb * 1024).toNat :=
        h.hugepage huge
      omega
    · intro hlt
      have hexact : (config.chunkSizeKb * 1024).toNat = config.chunkSizeKb.toNat * 1024 := by omega
      have hequal : (config.chunkSizeKb * 1024).toNat = (config.regionSizeKb * 1024).toNat := by
        omega
      exact ⟨hregion, hexact, fun _ => hequal⟩
  · next hsmall =>
    rw [← chunk_product_iff]
    exact ⟨fun h => h.chunk, fun h => ⟨hregion, h, fun huge => absurd huge hsmall⟩⟩

theorem MemRegion.Arguments.singleChunk {a : MemRegion.Arguments} (hsize : a.size < 2 ^ 64)
    (hpage : a.pageSize = a.size) (h : a.construct = .done r) : r.SingleChunk := by
  have hr : r.WellFormed := .of_new hsize (Nat.le_refl _) (hpage ▸ hsize) h
  have hlayout := MemRegion.new_done h
  have hactive : r.activeSize = a.size := by
    rw [hlayout]
    rfl
  have hwhole : r.pageSize = r.activeSize := by
    rw [hactive, hlayout]
    exact (if_neg (Nat.not_lt.2 (Nat.le_of_eq hpage))).trans hpage
  have hpages : r.numActivePages = 1 := by
    rw [hr.pages, ← hwhole]
    exact Nat.div_self hr.page_pos
  have hlines : r.numLinesInPage = r.activeSize / r.lineSize := by rw [hr.lines, hwhole]
  refine ⟨hpages, hlines, fun h8 rand fuel m hm o ho => ?_⟩
  obtain ⟨k, hk, rfl⟩ := ho
  rw [← hlines] at hk
  have hP : 0 < r.numActivePages := hpages ▸ Nat.one_pos
  obtain ⟨linesInPage, σ, hσ, htours⟩ := MemRegion.pageRandomInit_tours hr h8 hP
    (Nat.zero_lt_of_lt hk) hm
  refine (hσ.reachable_iff htours _).2 ⟨0, hP, k, hk, ?_⟩
  rw [MemRegion.lineOffset, Nat.zero_mul, Nat.zero_add]

/-- The constructor is handed the sizes that were asked for exactly if the chunk, or the region
that replaces it, is smaller than 4 GiB; the region is a single chunk then. -/
theorem lat_geometry_requested (t : TestingType) (numa : NumaConfig) (argv : List Text)
    (config : Configuration) (node : Int32) (numThreads threadId : UInt32)
    (hparse : Configuration.parseOptions t numa argv = .done (.ok config))
    (hfits : config.regionSizeKb.toNat * 1024 < 2 ^ 64) :
    let pkt := prepareMemLatBwThreadPacket config node numThreads threadId
    let a := latRegionArguments pkt
    (∀ rand fuel, memRegionAllocLat rand fuel pkt = a.construct >>= fun r =>
      r.initByPattern pkt.accessPattern rand fuel .zeroed >>= fun m => .done (r, m)) ∧
    (a.AsRequested config ↔ config.ChunkFits) ∧
    (a.AsRequested config → config.useHugepage > 0 →
      ∀ r, a.construct = .done r → r.SingleChunk) := by
  intro pkt a
  refine ⟨fun rand fuel => rfl,
    asRequested_iff rfl hfits (Configuration.parseOptions_chunk hparse), fun h huge r hr => ?_⟩
  exact MemRegion.Arguments.singleChunk (UInt64.toNat_lt _) (h.hugepage huge) hr

/-- Huge pages for a region of 64 KiB: one chunk of 64 KiB. -/
theorem lat_geometry_requested_hugepage :
    let numa := NumaConfig.new ⟨0, 1, 1, fun _ => true, fun _ => 2 ^ 34, fun _ => some fun _ => true⟩
    ∃ config, Configuration.parseOptions .latency numa
        ["cpu_idle_latency".toList, "-b64".toList, "-H1".toList] = .done (.ok config) ∧
      (latRegionArguments (prepareMemLatBwThreadPacket config (-1) 1 0)).AsRequested config := by
  intro numa
  let config := { Configuration.byDefault .latency numa with
    regionSizeKb := 64, chunkSizeKb := 64, useHugepage := 1 }
  have hparse : Configuration.parseOptions .latency numa
      ["cpu_idle_latency".toList, "-b64".toList, "-H1".toList] = .done (.ok config) := by
    decide +kernel
  have hgeometry := lat_geometry_requested .latency numa _ config (-1) 1 0 hparse (by decide +kernel)
  exact ⟨config, hparse, hgeometry.2.1.2 (by decide +kernel)⟩

/-- Huge pages for a region of 4 GiB: the chunk is empty, and the constructor divides by it. -/
theorem lat_geometry_truncated :
    let numa := NumaConfig.new ⟨0, 1, 1, fun _ => true, fun _ => 2 ^ 34, fun _ => some fun _ => true⟩
    ∃ config, Configuration.parseOptions .latency numa
        ["cpu_idle_latency".toList, "-b4194304".toList, "-H1".toList] = .done (.ok config) ∧
      config.regionSizeKb.toNat * 1024 < 2 ^ 64 ∧
      ¬ (latRegionArguments (prepareMemLatBwThreadPacket config (-1) 1 0)).AsRequested config ∧
      ∀ rand fuel, memRegionAllocLat rand fuel (prepareMemLatBwThreadPacket config (-1) 1 0) =
        .fault .divideByZero := by
  intro numa
  let config := { Configuration.byDefault .latency numa with
    regionSizeKb := 4194304, chunkSizeKb := 4194304, useHugepage := 1 }
  have hpage : (latRegionArguments (prepareMemLatBwThreadPacket config (-1) 1 0)).pageSize = 0 := by
    decide +kernel
  refine ⟨config, by decide +kernel, by decide +kernel, fun h => ?_, fun rand fuel => ?_⟩
  · have hregion := h.region
    rw [← h.hugepage (by decide +kernel), hpage] at hregion
    exact absurd hregion (by decide +kernel)
  · rw [memRegionAllocLat_eq, if_pos (.inl hpage)]

end MmMem

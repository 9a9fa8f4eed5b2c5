import MmMem.Configuration
import MmMem.MeasureLoop
import MmMem.MemRegion

namespace MmMem
open Prog
set_option autoImplicit true

/-- The configuration a worker is handed; its regions and kernels are passed beside it. -/
structure MemLatBwThreadPacket where
  numThreads : UInt32
  threadId : UInt32
  targetDuration : UInt32
  regionSizeKb : UInt64
  accessPattern : UInt32
  chunkSizeKb : UInt32
  strideSizeB : UInt32
  useHugepage : UInt32
  memType : Int32
  refLatencyPs : UInt32
  readWriteMix : UInt32
  refTotalBwGbps : UInt32
  numTotalThreads : UInt32
  fragmentSize : UInt64
  refOneExecTimeNs : UInt64
  deriving Repr, DecidableEq

/-- `MemType::NODE0` -/
def memTypeNode0 : Int32 := 1

/-- The packet of worker `threadId` of `numThreads`; `node` is -1 where none is asked for. -/
def prepareMemLatBwThreadPacket (config : Configuration) (node : Int32)
    (numThreads threadId : UInt32) : MemLatBwThreadPacket where
  numThreads
  threadId
  targetDuration := 0
  regionSizeKb := config.regionSizeKb
  accessPattern := config.accessPattern
  chunkSizeKb := config.chunkSizeKb
  strideSizeB := config.strideSizeB
  useHugepage := config.useHugepage
  memType := memTypeNode0 + node
  refLatencyPs := 0
  readWriteMix := 0
  refTotalBwGbps := 0
  numTotalThreads := 0
  fragmentSize := 0
  refOneExecTimeNs := 0

/-- The initializer `mem_region_alloc_lat` selects. -/
def MemRegion.initByPattern (r : MemRegion) (accessPattern : UInt32) (rand : Nat → Nat) (fuel : Nat)
    (m : Memory) : Run Fault Memory :=
  if accessPattern = 0 then r.strideInit fuel m
  else if accessPattern = 1 then r.pageRandomInit rand fuel m
  else if accessPattern = 2 then r.allRandomInit rand fuel m
  else r.pageRandomInit rand fuel m

theorem MemRegion.initByPattern_stride (r : MemRegion) (rand : Nat → Nat) (fuel : Nat)
    (m : Memory) : r.initByPattern 0 rand fuel m = r.strideInit fuel m := if_pos rfl

theorem MemRegion.initByPattern_region (r : MemRegion) (rand : Nat → Nat) (fuel : Nat)
    (m : Memory) : r.initByPattern 2 rand fuel m = r.allRandomInit rand fuel m := rfl

/-- Any other access pattern is random in each chunk. -/
theorem MemRegion.initByPattern_chunk {accessPattern : UInt32} (h0 : accessPattern ≠ 0)
    (h2 : accessPattern ≠ 2) (r : MemRegion) (rand : Nat → Nat) (fuel : Nat) (m : Memory) :
    r.initByPattern accessPattern rand fuel m = r.pageRandomInit rand fuel m := by
  rw [MemRegion.initByPattern, if_neg h0, if_neg h2, ite_self]

def memRegionAllocLat (rand : Nat → Nat) (fuel : Nat) (pkt : MemLatBwThreadPacket) :
    Run Fault (MemRegion × Memory) := do
  let size := (pkt.regionSizeKb * 1024).toNat
  let r ← MemRegion.new size size (pkt.chunkSizeKb * 1024).toNat pkt.strideSizeB.toNat
    pkt.memType.toInt pkt.useHugepage.toInt32.toInt
  let m ← r.initByPattern pkt.accessPattern rand fuel .zeroed
  return (r, m)

def memRegionAllocBw (pkt : MemLatBwThreadPacket) : Run Fault MemRegion :=
  let size := (pkt.regionSizeKb * 1024).toNat
  MemRegion.new size size 4096 64 pkt.memType.toInt 0

/-- The destination region and the source region. -/
def memRegionAllocMemcpy (pkt : MemLatBwThreadPacket) : Run Fault (MemRegion × MemRegion) := do
  let size := (pkt.regionSizeKb * 1024).toNat
  let dst ← MemRegion.new size size 4096 64 0 0
  let src ← MemRegion.new size size 4096 64 0 0
  return (dst, src)

def MemLatBwThreadPacket.targetDurationNs (pkt : MemLatBwThreadPacket) : Int :=
  pkt.targetDuration.toNat * 1000000000

def latChkptChases (pkt : MemLatBwThreadPacket) (r : MemRegion) : Run Fault Nat :=
  if pkt.refLatencyPs > 0 then do
    let chases ← divide (4 <<< 20) pkt.refLatencyPs.toNat
    return u64 (chases * 1000)
  else if r.activeSize > 32768 * 1024 then divide (4 <<< 20) 128
  else if r.activeSize > 2048 * 1024 then divide (4 <<< 20) 32
  else if r.activeSize > 32 * 1024 then divide (4 <<< 20) 8
  else divide (4 <<< 20) 2

def latLoop (pkt : MemLatBwThreadPacket) (r : MemRegion) : Run Fault MeasureLoop := do
  let loopCount ← divide r.activeSize (u64 (256 * r.lineSize))
  let chkpt ← latChkptChases pkt r
  return { loopCount, loopUnit := 256, chkpt, targetDurationNs := pkt.targetDurationNs }

def latPtr (kernelLat : σ → Run Fault σ) (start : σ) (clock : Nat → Int) (fuel : Nat)
    (pkt : MemLatBwThreadPacket) (r : MemRegion) : Run Fault (LoopState σ) := do
  let l ← latLoop pkt r
  l.run clock (fun _ => kernelLat) (fun _ => start) fuel start

/-- A load whose value is only added up. -/
def MemRegion.loadWord (r : MemRegion) (offset : Nat) : Run Fault Unit :=
  if offset + 8 ≤ r.size then .done () else .fault (.outsideRegion offset)

/-- The 256 chases from `p`, and the load behind `ret += *p`. -/
def kernelLat (r : MemRegion) (m : Memory) (p : Nat) : Run Fault Nat := do
  let p ← Run.loop (fun _ p => r.loadPointer m p) 256 0 p
  let _ ← r.loadWord p
  return p

def perCoreBwMbps (pkt : MemLatBwThreadPacket) : Run Fault Nat :=
  if pkt.refTotalBwGbps > 0 then divide (pkt.refTotalBwGbps * 1024).toNat pkt.numThreads.toNat
  else divide (2 * 1024 * pkt.numTotalThreads).toNat pkt.numThreads.toNat

def bwLoop (pkt : MemLatBwThreadPacket) (r : MemRegion) : Run Fault MeasureLoop := do
  let mbps ← perCoreBwMbps pkt
  let chkpt ← divide (u64 (mbps * 1024 * 1024 * 4)) 1000
  let loopCount ← divide r.activeSize (256 * 32)
  return { loopCount, loopUnit := 256 * 32, chkpt, targetDurationNs := pkt.targetDurationNs }

def bwSequential (kernelBw : σ → Run Fault σ) (start : σ) (clock : Nat → Int) (fuel : Nat)
    (pkt : MemLatBwThreadPacket) (r : MemRegion) : Run Fault (LoopState σ) := do
  let l ← bwLoop pkt r
  l.run clock (fun _ => kernelBw) (fun _ => start) fuel start

def memcpyChkptCalls (pkt : MemLatBwThreadPacket) : Run Fault Nat :=
  if pkt.refOneExecTimeNs > 0 then do
    let calls ← divide (5 * 1000000) pkt.refOneExecTimeNs.toNat
    return max calls 1
  else .done 1

def memcpyLoop (pkt : MemLatBwThreadPacket) (r : MemRegion) : Run Fault MeasureLoop := do
  let chkpt ← memcpyChkptCalls pkt
  let loopCount ← divide r.activeSize pkt.fragmentSize.toNat
  return { loopCount, loopUnit := 1, chkpt, targetDurationNs := pkt.targetDurationNs }

/-- `kernelMemcpy` copies a fragment between the offsets it is given in the two regions. -/
def copyFragment (kernelMemcpy : Nat → Nat → Nat → σ → Run Fault σ) (clock : Nat → Int)
    (fuel : Nat) (pkt : MemLatBwThreadPacket) (r : MemRegion) (cursor : σ) :
    Run Fault (LoopState σ) := do
  let l ← memcpyLoop pkt r
  let copy i := kernelMemcpy (u64 (pkt.fragmentSize.toNat * i)) (u64 (pkt.fragmentSize.toNat * i))
    pkt.fragmentSize.toNat
  l.run clock copy id fuel cursor

/-- The packet of a worker in a round of `measure_idle_latency`. -/
def MemLatBwThreadPacket.forIdleLatency (pkt : MemLatBwThreadPacket) (config : Configuration)
    (lastMeasuredLatPs : UInt32) : MemLatBwThreadPacket :=
  { pkt with
    refLatencyPs := lastMeasuredLatPs
    targetDuration := if lastMeasuredLatPs > 0 then config.targetDurationS else 1 }

/-- The packet of a worker in a round of `measure_loaded_latency`. -/
def MemLatBwThreadPacket.forLoadedLatency (pkt : MemLatBwThreadPacket) (config : Configuration)
    (numCpus lastMeasuredLatPs lastMeasuredBwGbps : UInt32) : MemLatBwThreadPacket :=
  { pkt with
    refLatencyPs := lastMeasuredLatPs
    readWriteMix := config.readWriteMix
    refTotalBwGbps := lastMeasuredBwGbps
    numTotalThreads := numCpus
    targetDuration :=
      if pkt.threadId = 0 then if lastMeasuredLatPs > 0 then config.targetDurationS else 1
      else if lastMeasuredBwGbps > 0 then config.targetDurationS else 1 }

/-- The packet of a worker in a round of `measure_peak_bandwidth`. -/
def MemLatBwThreadPacket.forPeakBandwidth (pkt : MemLatBwThreadPacket) (config : Configuration)
    (numCpus readWriteMix lastMeasuredBwGbps : UInt32) : MemLatBwThreadPacket :=
  { pkt with
    readWriteMix
    refTotalBwGbps := lastMeasuredBwGbps
    numTotalThreads := numCpus
    targetDuration := if lastMeasuredBwGbps > 0 then config.targetDurationS else 1 }

/-- The packet of a worker in a round of `measure_mempcy_bandwidth`. -/
def MemLatBwThreadPacket.forMemcpy (pkt : MemLatBwThreadPacket) (config : Configuration)
    (lastMeasuredExecTimeNs : UInt64) : MemLatBwThreadPacket :=
  { pkt with
    fragmentSize := config.fragmentSizeB
    refOneExecTimeNs := lastMeasuredExecTimeNs
    targetDuration := if lastMeasuredExecTimeNs > 0 then config.targetDurationS else 1 }

end MmMem

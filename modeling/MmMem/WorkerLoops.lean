import MmMem.WorkerRoutines

namespace MmMem
open Prog
set_option autoImplicit true

namespace MeasureLoop

variable {l : MeasureLoop}

/-- What the three routines set their loops up with. -/
structure Sized (l : MeasureLoop) : Prop where
  unit : ∃ k ≤ 13, l.loopUnit = 2 ^ k
  chkpt : l.chkpt < 2 ^ 46
  target : 0 ≤ l.targetDurationNs

theorem Sized.unit_dvd (h : l.Sized) : l.loopUnit ∣ 2 ^ 64 := by
  obtain ⟨k, hk, he⟩ := h.unit
  rw [he]
  exact Nat.pow_dvd_pow 2 (by omega)

theorem Sized.unit_pos (h : l.Sized) : 0 < l.loopUnit := by
  obtain ⟨k, -, he⟩ := h.unit
  rw [he]
  exact Nat.pow_pos (by decide)

theorem Sized.unit_le (h : l.Sized) : l.loopUnit ≤ 2 ^ 13 := by
  obtain ⟨k, hk, he⟩ := h.unit
  rw [he]
  exact Nat.pow_le_pow_right (by decide) hk

end MeasureLoop

theorem MemLatBwThreadPacket.targetDurationNs_nonneg (pkt : MemLatBwThreadPacket) :
    0 ≤ pkt.targetDurationNs := by
  rw [MemLatBwThreadPacket.targetDurationNs]
  omega

theorem latChkptChases_spec (pkt : MemLatBwThreadPacket) (r : MemRegion) :
    ∃ chkpt < 2 ^ 33, latChkptChases pkt r = .done chkpt := by
  have hdivide : ∀ k, k ≠ 0 → ∃ chkpt < 2 ^ 33, divide (4 <<< 20) k = .done chkpt := by
    intro k hk
    exact ⟨_, Nat.lt_of_le_of_lt (Nat.div_le_self _ _) (by decide), divide_eq hk⟩
  rw [latChkptChases]
  split
  · next hpos =>
    have hne : pkt.refLatencyPs.toNat ≠ 0 := Nat.ne_of_gt (UInt32.lt_iff_toNat_lt.1 hpos)
    have hle : 4 <<< 20 / pkt.refLatencyPs.toNat ≤ 4 <<< 20 := Nat.div_le_self _ _
    rw [divide_eq hne, Run.done_bind]
    refine ⟨_, ?_, rfl⟩
    rw [u64_eq (by omega)]
    omega
  · split
    · exact hdivide 128 (by decide)
    · split
      · exact hdivide 32 (by decide)
      · split
        · exact hdivide 8 (by decide)
        · exact hdivide 2 (by decide)

theorem latLoop_spec (pkt : MemLatBwThreadPacket) {r : MemRegion} (hpos : 0 < r.lineSize)
    (hlt : r.lineSize < 2 ^ 32) : ∃ l, latLoop pkt r = .done l ∧ l.Sized ∧
      l.targetDurationNs = pkt.targetDurationNs ∧
      l.loopCount = r.activeSize / (256 * r.lineSize) := by
  obtain ⟨chkpt, hc, hchkpt⟩ := latChkptChases_spec pkt r
  rw [latLoop, u64_eq (by omega), divide_eq (by omega), hchkpt]
  exact ⟨_, rfl, ⟨⟨8, by decide, rfl⟩, Nat.lt_trans hc (by decide), pkt.targetDurationNs_nonneg⟩,
    rfl, rfl⟩

theorem perCoreBwMbps_spec {pkt : MemLatBwThreadPacket} (hpos : 0 < pkt.numThreads.toNat) :
    ∃ mbps < 2 ^ 32, perCoreBwMbps pkt = .done mbps := by
  rw [perCoreBwMbps]
  split
  · exact ⟨_, Nat.lt_of_le_of_lt (Nat.div_le_self _ _) (UInt32.toNat_lt _), divide_eq (by omega)⟩
  · exact ⟨_, Nat.lt_of_le_of_lt (Nat.div_le_self _ _) (UInt32.toNat_lt _), divide_eq (by omega)⟩

theorem bwLoop_spec {pkt : MemLatBwThreadPacket} (r : MemRegion)
    (hpos : 0 < pkt.numThreads.toNat) : ∃ l, bwLoop pkt r = .done l ∧ l.Sized ∧
      l.targetDurationNs = pkt.targetDurationNs ∧ l.loopCount = r.activeSize / (256 * 32) := by
  obtain ⟨mbps, hm, hmbps⟩ := perCoreBwMbps_spec hpos
  rw [bwLoop, hmbps, Run.done_bind, u64_eq (by omega), divide_eq (by decide), Run.done_bind,
    divide_eq (by decide)]
  have hchkpt : mbps * 1024 * 1024 * 4 / 1000 < 2 ^ 46 := by omega
  exact ⟨_, rfl, ⟨⟨13, Nat.le_refl _, rfl⟩, hchkpt, pkt.targetDurationNs_nonneg⟩, rfl, rfl⟩

theorem memcpyChkptCalls_spec (pkt : MemLatBwThreadPacket) :
    ∃ chkpt < 2 ^ 33, memcpyChkptCalls pkt = .done chkpt := by
  rw [memcpyChkptCalls]
  split
  · next hpos =>
    have hne : pkt.refOneExecTimeNs.toNat ≠ 0 := Nat.ne_of_gt (UInt64.lt_iff_toNat_lt.1 hpos)
    have hle : 5 * 1000000 / pkt.refOneExecTimeNs.toNat ≤ 5 * 1000000 := Nat.div_le_self _ _
    rw [divide_eq hne, Run.done_bind]
    exact ⟨_, by omega, rfl⟩
  · exact ⟨1, by decide, rfl⟩

theorem memcpyLoop_spec (pkt : MemLatBwThreadPacket) (r : MemRegion)
    (hpos : 0 < pkt.fragmentSize.toNat) : ∃ l, memcpyLoop pkt r = .done l ∧ l.Sized ∧
      l.targetDurationNs = pkt.targetDurationNs ∧
      l.loopCount = r.activeSize / pkt.fragmentSize.toNat := by
  obtain ⟨chkpt, hc, hchkpt⟩ := memcpyChkptCalls_spec pkt
  rw [memcpyLoop, hchkpt, Run.done_bind, divide_eq (by omega)]
  exact ⟨_, rfl, ⟨⟨0, by decide, rfl⟩, Nat.lt_trans hc (by decide), pkt.targetDurationNs_nonneg⟩,
    rfl, rfl⟩

end MmMem

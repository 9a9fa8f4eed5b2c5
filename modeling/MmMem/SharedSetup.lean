import MmMem.SharedMemory

namespace MmMem
open Prog
set_option autoImplicit true

namespace Accessing

/-- `memset(addr1_, 0, size_);` -/
def zeroFill (base size : Nat) : Accessing Unit :=
  Caller.loop (fun i _ => Caller.ask (ByteAccess.store (base + i) 0)) size 0 ()

/-- A store of a pointer into the region. The memory beside it is a ghost: nothing reads it. -/
def storePointer (base : Nat) (r : MemRegion) (m : Memory) (offset target : Nat) :
    Accessing Memory := do
  Caller.storeNumber 8 (u64 (base + offset)) (u64 (base + target))
  r.storePointer m offset target

def strideLoop (base : Nat) (r : MemRegion) : Nat → Nat → Memory → Accessing (Nat × Memory)
  | 0, _, _ => liftM (.running : Run Fault _)
  | fuel + 1, i, m =>
    if i < r.activeSize then do
      let m ← storePointer base r m (u64Sub i r.lineSize) i
      strideLoop base r fuel (u64 (i + r.lineSize)) m
    else pure (i, m)

def strideInit (base : Nat) (r : MemRegion) (fuel : Nat) (m : Memory) : Accessing Memory := do
  let (i, m) ← strideLoop base r fuel r.lineSize m
  storePointer base r m (u64Sub i r.lineSize) 0

def linkPage (base : Nat) (r : MemRegion) (pages linesInPage : List Nat) (i : Nat) (m : Memory) :
    Accessing Memory := do
  let m ← Caller.loop (fun j m => do
    let page ← vectorAt pages i
    let line ← vectorAt linesInPage j
    let nextLine ← vectorAt linesInPage (u64 (j + 1))
    storePointer base r m (u64 (page + line)) (u64 (page + nextLine)))
    (u64Sub r.numLinesInPage 1) 0 m
  let nextPage := if i = u64Sub r.numActivePages 1 then 0 else u64 (i + 1)
  let page ← vectorAt pages i
  let line ← vectorAt linesInPage (u64Sub r.numLinesInPage 1)
  let page' ← vectorAt pages nextPage
  let line' ← vectorAt linesInPage 0
  storePointer base r m (u64 (page + line)) (u64 (page' + line'))

def pageRandomInit (base : Nat) (r : MemRegion) (rand : Nat → Nat) (fuel : Nat) (m : Memory) :
    Accessing Memory := do
  let pages ← randomizeSequence rand fuel (List.replicate r.numActivePages 0)
    r.numActivePages r.pageSize true
  let linesInPage ← randomizeSequence rand fuel (List.replicate r.numLinesInPage 0)
    r.numLinesInPage r.lineSize false
  Caller.loop (linkPage base r pages linesInPage) r.numActivePages 0 m

def allRandomInit (base : Nat) (r : MemRegion) (rand : Nat → Nat) (fuel : Nat) (m : Memory) :
    Accessing Memory := do
  let numLines := r.numActiveLines
  let lines ← randomizeSequence rand fuel (List.replicate numLines 0) numLines r.lineSize false
  let m ← Caller.loop (fun i m => do
    let line ← vectorAt lines i
    let nextLine ← vectorAt lines (u64 (i + 1))
    storePointer base r m line nextLine) (u64Sub numLines 1) 0 m
  let line ← vectorAt lines (u64Sub numLines 1)
  let line' ← vectorAt lines 0
  storePointer base r m line line'

def initByPattern (base : Nat) (r : MemRegion) (accessPattern : UInt32) (rand : Nat → Nat)
    (fuel : Nat) (m : Memory) : Accessing Memory :=
  if accessPattern = 0 then strideInit base r fuel m
  else if accessPattern = 1 then pageRandomInit base r rand fuel m
  else if accessPattern = 2 then allRandomInit base r rand fuel m
  else pageRandomInit base r rand fuel m

/-- `mem_region_alloc_lat`, once the allocation has placed the region at `base`. -/
def allocLat (env : Surroundings) (base : Nat) (pkt : MemLatBwThreadPacket) : Accessing Worker := do
  let size := (pkt.regionSizeKb * 1024).toNat
  let r ← MemRegion.new size size (pkt.chunkSizeKb * 1024).toNat pkt.strideSizeB.toNat
    pkt.memType.toInt pkt.useHugepage.toInt32.toInt
  zeroFill base r.size
  let m ← initByPattern base r pkt.accessPattern (env.rand pkt.threadId.toNat) env.fuel .zeroed
  return .new pkt r m

def allocBw (base : Nat) (pkt : MemLatBwThreadPacket) : Accessing Worker := do
  let size := (pkt.regionSizeKb * 1024).toNat
  let r ← MemRegion.new size size 4096 64 pkt.memType.toInt 0
  zeroFill base r.size
  return .new pkt r .zeroed

def allocLoaded (env : Surroundings) (base : Nat) (pkt : MemLatBwThreadPacket) :
    Accessing Worker :=
  if pkt.threadId = 0 then allocLat env base pkt else allocBw base pkt

end Accessing

variable {may : ByteAccess → Prop} {base : Nat} {r : MemRegion} {m : Memory} {b : Bytes}

/-- Both sides have come to the same memory, and the bytes of the region stand for it. -/
def Stored (base size : Nat) (m : Memory) (b : Bytes) (m' : Memory) : Prop :=
  m = m' ∧ Represents base size m b

namespace Accessing

theorem zeroFill_fills (h : Owned may base size) (b : Bytes) :
    (zeroFill base size).Refines byteMemory may
      (fun _ b' _ => ∀ a, b' a = if base ≤ a ∧ a < base + size then 0 else b a)
      b (.done () : Run Fault Unit) := by
  have hfill : ∀ n i, i + n = size → ∀ b : Bytes,
      (Caller.loop (fun i _ => Caller.ask (ByteAccess.store (base + i) 0)) n i ()
        : Accessing Unit).Refines byteMemory may
        (fun _ b' _ => ∀ a, b' a = if base + i ≤ a ∧ a < base + size then 0 else b a)
        b (.done () : Run Fault Unit) := by
    intro n
    induction n with
    | zero =>
      intro i hi b
      exact .done fun a => (if_neg (by omega)).symm
    | succ n ih =>
      intro i hi b
      have hstore : (Caller.ask (ByteAccess.store (base + i) 0) : Accessing Unit).Refines byteMemory
          may (fun _ b' _ => b' = Function.update b (base + i) 0) b (.done () : Run Fault Unit) := by
        refine .ask (h.may _ ⟨?_, ?_⟩) rfl
        · exact Nat.le_add_right base i
        · change base + i < base + size
          omega
      refine hstore.bind (g := fun _ => .done ()) ?_
      rintro _ b' - rfl
      apply (ih (i + 1) (by omega) _).mono
      intro _ b' _ hb' a
      rw [hb', Function.update_apply]
      by_cases ha : a = base + i
      · rw [if_neg (by omega), if_pos ha, if_pos (by omega)]
      · rw [if_neg ha]
        exact if_congr (by omega) rfl rfl
  exact hfill size 0 (Nat.zero_add size) b

theorem zeroFill_refines (h : Owned may base r.size) (b : Bytes) :
    (zeroFill base r.size).Refines byteMemory may (fun _ b' _ => Represents base r.size .zeroed b')
      b (.done () : Run Fault Unit) :=
  (zeroFill_fills h b).mono fun _ b' _ _ => .zeroed base r.size b'

theorem storePointer_refines (h : Owned may base r.size) (hm : Represents base r.size m b)
    (offset target : Nat) : (storePointer base r m offset target).Refines byteMemory may
      (Stored base r.size) b (r.storePointer m offset target) := by
  refine ⟨fun hx => ?_⟩
  by_cases hfits : offset + 8 ≤ r.size
  · rw [storePointer, MemRegion.storePointer, if_pos hfits] at *
    have hstore : (Caller.storeNumber 8 (u64 (base + offset)) (u64 (base + target))
        : Accessing Unit).Refines byteMemory may
        (fun _ b' _ => Represents base r.size (m.store offset target) b') b
        (.done () : Run Fault Unit) := by
      rw [h.address hfits]
      refine .storeNumber (h.stores hfits) ?_
      exact hm.store offset target
    refine (hstore.bind (g := fun _ => Run.done _) ?_).ends fun _ => Run.done_ne_fault
    rintro _ b' - hb'
    exact .done ⟨rfl, hb'⟩
  · rw [MemRegion.storePointer, if_neg hfits] at hx
    exact absurd rfl (hx _)

theorem strideLoop_refines (h : Owned may base r.size) (hm : Represents base r.size m b)
    (fuel i : Nat) : (strideLoop base r fuel i m).Refines byteMemory may
      (fun x b' y => x.1 = y.1 ∧ Stored base r.size x.2 b' y.2) b (r.strideLoop fuel i m) := by
  induction fuel generalizing i m b with
  | zero => exact .lift _ fun _ h => nomatch h
  | succ fuel ih =>
    rw [strideLoop, MemRegion.strideLoop]
    split
    · apply (storePointer_refines h hm _ _).bind
      rintro m b' _ ⟨rfl, hm'⟩
      exact ih hm' _
    · exact .done ⟨rfl, rfl, hm⟩

theorem strideInit_refines (h : Owned may base r.size) (hm : Represents base r.size m b)
    (fuel : Nat) :
    (strideInit base r fuel m).Refines byteMemory may (Stored base r.size) b
      (r.strideInit fuel m) := by
  apply (strideLoop_refines h hm fuel r.lineSize).bind
  rintro ⟨i, m⟩ b' ⟨_, _⟩ ⟨rfl, rfl, hm'⟩
  exact storePointer_refines h hm' _ _

theorem linkPage_refines (h : Owned may base r.size) (hm : Represents base r.size m b)
    (pages linesInPage : List Nat) (i : Nat) :
    (linkPage base r pages linesInPage i m).Refines byteMemory may (Stored base r.size) b
      (r.linkPage pages linesInPage i m) := by
  have hlines : ∀ j m b m', Stored base r.size m b m' →
      (do
        let page ← vectorAt pages i
        let line ← vectorAt linesInPage j
        let nextLine ← vectorAt linesInPage (u64 (j + 1))
        storePointer base r m (u64 (page + line)) (u64 (page + nextLine))
        : Accessing Memory).Refines byteMemory may (Stored base r.size) b (do
          let page ← vectorAt pages i
          let line ← vectorAt linesInPage j
          let nextLine ← vectorAt linesInPage (u64 (j + 1))
          r.storePointer m' (u64 (page + line)) (u64 (page + nextLine))) := by
    rintro j m b _ ⟨rfl, hm⟩
    exact .lift_bind fun page _ => .lift_bind fun line _ => .lift_bind fun nextLine _ =>
      storePointer_refines h hm _ _
  have hstored : Stored base r.size m b m := ⟨rfl, hm⟩
  rw [linkPage, MemRegion.linkPage]
  refine Caller.Refines.bind (Caller.Refines.loop hlines hstored) ?_
  rintro m b' _ ⟨rfl, hm'⟩
  exact .lift_bind fun page _ => .lift_bind fun line _ => .lift_bind fun page' _ =>
    .lift_bind fun line' _ => storePointer_refines h hm' _ _

theorem pageRandomInit_refines (h : Owned may base r.size) (hm : Represents base r.size m b)
    (rand : Nat → Nat) (fuel : Nat) : (pageRandomInit base r rand fuel m).Refines byteMemory may
      (Stored base r.size) b (r.pageRandomInit rand fuel m) := by
  rw [pageRandomInit, MemRegion.pageRandomInit]
  apply Caller.Refines.lift_bind
  intro pages _
  apply Caller.Refines.lift_bind
  intro linesInPage _
  have hstored : Stored base r.size m b m := ⟨rfl, hm⟩
  refine Caller.Refines.loop ?_ hstored
  rintro i m b _ ⟨rfl, hm⟩
  exact linkPage_refines h hm pages linesInPage i

theorem allRandomInit_refines (h : Owned may base r.size) (hm : Represents base r.size m b)
    (rand : Nat → Nat) (fuel : Nat) : (allRandomInit base r rand fuel m).Refines byteMemory may
      (Stored base r.size) b (r.allRandomInit rand fuel m) := by
  rw [allRandomInit, MemRegion.allRandomInit]
  apply Caller.Refines.lift_bind
  intro lines _
  have hlinks : ∀ i m b m', Stored base r.size m b m' →
      (do
        let line ← vectorAt lines i
        let nextLine ← vectorAt lines (u64 (i + 1))
        storePointer base r m line nextLine
        : Accessing Memory).Refines byteMemory may (Stored base r.size) b (do
          let line ← vectorAt lines i
          let nextLine ← vectorAt lines (u64 (i + 1))
          r.storePointer m' line nextLine) := by
    rintro i m b _ ⟨rfl, hm⟩
    exact .lift_bind fun line _ => .lift_bind fun nextLine _ => storePointer_refines h hm _ _
  have hstored : Stored base r.size m b m := ⟨rfl, hm⟩
  refine Caller.Refines.bind (Caller.Refines.loop hlinks hstored) ?_
  rintro m b' _ ⟨rfl, hm'⟩
  exact .lift_bind fun line _ => .lift_bind fun line' _ => storePointer_refines h hm' _ _

theorem initByPattern_refines (h : Owned may base r.size) (hm : Represents base r.size m b)
    (accessPattern : UInt32) (rand : Nat → Nat) (fuel : Nat) :
    (initByPattern base r accessPattern rand fuel m).Refines byteMemory may (Stored base r.size) b
      (r.initByPattern accessPattern rand fuel m) := by
  rw [initByPattern, MemRegion.initByPattern]
  split
  · exact strideInit_refines h hm fuel
  split
  · exact pageRandomInit_refines h hm rand fuel
  split
  · exact allRandomInit_refines h hm rand fuel
  · exact pageRandomInit_refines h hm rand fuel

end Accessing

/-- A worker whose region starts at `base`; if it chases, the bytes stand for its chain. -/
structure Worker.Placed (base size : Nat) (chases : Prop) (w : Worker) (b : Bytes) : Prop where
  sized : w.region.size = size
  chain : chases → Represents base size w.memory b

theorem Worker.Placed.setUpLike {chases : Prop} {w w' : Worker} (h : w.Placed base size chases b)
    (hw : w'.SetUpLike w) (hb : chases → b' = b) : w'.Placed base size chases b' where
  sized := hw.2.1 ▸ h.sized
  chain hchases := by
    rw [hw.2.2, hb hchases]
    exact h.chain hchases

theorem Worker.Placed.congr {chases : Prop} {w : Worker} (h : w.Placed base size chases b)
    (hb : ∀ a, base ≤ a → a < base + size → b a = b' a) : w.Placed base size chases b' :=
  ⟨h.sized, fun hchases => (h.chain hchases).congr hb⟩

theorem Worker.Placed.owned {chases : Prop} {w : Worker} (h : w.Placed base size chases b)
    (howned : Owned may base size) : Owned may base w.region.size := h.sized ▸ howned

theorem Worker.Placed.represents {chases : Prop} {w : Worker} (h : w.Placed base size chases b)
    (hchases : chases) : Represents base w.region.size w.memory b := h.sized ▸ h.chain hchases

namespace Accessing

variable {pkt : MemLatBwThreadPacket}

theorem allocLat_refines (hsize : (pkt.regionSizeKb * 1024).toNat = size)
    (h : Owned may base size) (env : Surroundings) :
    (allocLat env base pkt).Refines byteMemory may (fun w b' w' => w = w' ∧
      w.Placed base size True b') b (Worker.allocLat env pkt) := by
  rw [Worker.allocLat, memRegionAllocLat, Run.bind_assoc]
  apply Caller.Refines.lift_bind
  intro r hr
  have hr : r.size = size := by
    rw [MemRegion.new_done hr, ← hsize]
    rfl
  rw [← hr] at h ⊢
  rw [Run.bind_assoc]
  refine (zeroFill_refines h b).bind (g := fun _ => _) ?_
  intro _ b' _ hzeroed
  apply (initByPattern_refines h hzeroed _ _ _).bind
  rintro m b'' _ ⟨rfl, hm⟩
  exact .done ⟨rfl, rfl, fun _ => hm⟩

theorem allocBw_refines (hsize : (pkt.regionSizeKb * 1024).toNat = size)
    (h : Owned may base size) (chases : Prop) :
    (allocBw base pkt).Refines byteMemory may (fun w b' w' => w = w' ∧
      w.Placed base size chases b') b (Worker.allocBw pkt) := by
  rw [Worker.allocBw, memRegionAllocBw]
  apply Caller.Refines.lift_bind
  intro r hr
  have hr : r.size = size := by
    rw [MemRegion.new_done hr, ← hsize]
    rfl
  rw [← hr] at h ⊢
  refine (zeroFill_refines h b).bind (g := fun _ => _) ?_
  intro _ b' _ hzeroed
  exact .done ⟨rfl, rfl, fun _ => hzeroed⟩

/-- A worker is set up with the bytes of its own region alone. -/
theorem allocLoaded_refines (hsize : (pkt.regionSizeKb * 1024).toNat = size)
    (h : Owned may base size)
    (env : Surroundings) (chases : Prop) :
    (allocLoaded env base pkt).Refines byteMemory may (fun w b' w' => w = w' ∧
      w.Placed base size chases b') b (Worker.allocLoaded env pkt) := by
  rw [allocLoaded, Worker.allocLoaded]
  split
  · exact (allocLat_refines hsize h env).mono fun w b' w' hw =>
      ⟨hw.1, hw.2.sized, fun _ => hw.2.chain trivial⟩
  · exact allocBw_refines hsize h chases

end Accessing

end MmMem

import MmMem.KernelSweeps
import MmMem.LatencyFaults
import MmMem.Library.ByteMemory

namespace MmMem
open Prog
set_option autoImplicit true

/-- Code of a thread whose loads and stores reach the memory all threads share. -/
abbrev Accessing (α : Type) : Type := Caller ByteAccess ByteAccess.Answer Fault α

/-- The variables a kernel is handed by reference; `p` is an address. -/
structure Registers where
  ret : UInt64
  p : Nat
  deriving Repr, DecidableEq

/-- What a trip of the inner loop does behind the call of the kernel. -/
def MeasureLoop.count (l : MeasureLoop) (clock : Nat → Int) (s : LoopState σ) : Bool × LoopState σ :=
  if s.finished > s.nextChkpt then l.checkpoint (clock s.calls) s else (false, s)

theorem MeasureLoop.count_map (l : MeasureLoop) (clock : Nat → Int) (f : σ → τ) (s : LoopState σ) :
    l.count clock (s.map f) = ((l.count clock s).1, (l.count clock s).2.map f) := by
  by_cases hpass : s.finished > s.nextChkpt
  · rw [MeasureLoop.count, MeasureLoop.count, if_pos hpass, ← MeasureLoop.checkpoint_map]
    exact if_pos hpass
  · rw [MeasureLoop.count, MeasureLoop.count, if_neg hpass]
    exact if_neg hpass

theorem MeasureLoop.count_cursor (l : MeasureLoop) (clock : Nat → Int) (s : LoopState σ) :
    (l.count clock s).2.cursor = s.cursor := by
  rw [MeasureLoop.count]
  split
  · rw [MeasureLoop.checkpoint]
    split
    · rfl
    · rfl
  · rfl

namespace Accessing

/-- `ret += *p;` -/
def addWord (s : Registers) : Accessing Registers := do
  let x ← Caller.loadNumber 8 s.p
  return { s with ret := s.ret + .ofNat x }

/-- `p = reinterpret_cast<uint64_t*>(*p);` -/
def chase (s : Registers) : Accessing Registers := do
  let p ← Caller.loadNumber 8 s.p
  return { s with p }

def kernelLat (s : Registers) : Accessing Registers := do
  let s ← Caller.loop (fun _ => chase) 256 0 s
  addWord s

def exec (s : Registers) : Statement → Accessing Registers
  | .addWord => addWord s
  | .storeWord => do
    Caller.storeNumber 8 s.p s.ret.toNat
    return s
  | .advance => pure { s with p := u64 (s.p + 32) }
  | .nop => pure s

def runCode : Code → Registers → Accessing Registers
  | [], s => pure s
  | x :: c, s => exec s x >>= runCode c

/-- One trip of the inner loop of a worker, and whether it breaks. -/
def trip (l : MeasureLoop) (clock : Nat → Int) (kernel : Nat → σ → Accessing σ) (i : Nat)
    (s : LoopState σ) : Accessing (Bool × LoopState σ) := do
  let cursor ← kernel i s.cursor
  return l.count clock
    { s with cursor, calls := s.calls + 1, finished := u64 (s.finished + l.loopUnit) }

def forLoop (l : MeasureLoop) (clock : Nat → Int) (kernel : Nat → σ → Accessing σ) :
    Nat → Nat → LoopState σ → Accessing (Nat × LoopState σ)
  | 0, i, s => pure (i, s)
  | n + 1, i, s => do
    let (broke, s) ← trip l clock kernel i s
    if broke then return (i, s) else forLoop l clock kernel n (i + 1) s

def whileTrue (l : MeasureLoop) (clock : Nat → Int) (kernel : Nat → σ → Accessing σ)
    (restart : σ → σ) : Nat → LoopState σ → Accessing (LoopState σ)
  | 0, _ => liftM (.running : Run Fault _)
  | fuel + 1, s => do
    let (i, s) ← forLoop l clock kernel l.loopCount 0 { s with cursor := restart s.cursor }
    if i ≠ l.loopCount then return s else whileTrue l clock kernel restart fuel s

/-- The loops on registers; each pass begins at the start of the region again. -/
def measure (l : MeasureLoop) (clock : Nat → Int) (kernel : Registers → Accessing Registers)
    (fuel start : Nat) : Accessing (LoopState Registers) :=
  whileTrue l clock (fun _ => kernel) (fun s => { s with p := start }) fuel
    (l.start clock ⟨0, start⟩)

/-- `lat_ptr` on a region that starts at an address. -/
def latPtr (env : Surroundings) (round start : Nat) (w : Worker) : Accessing Worker := do
  let l ← latLoop w.pkt w.region
  let s ← measure l (env.clock round w.pkt.threadId.toNat) kernelLat env.fuel start
  return { w with finishedChases := s.finished, execTime := s.timer.getElapsedTime }

def bwSequential (env : Surroundings) (kernelBw : Code) (round start : Nat) (w : Worker) :
    Accessing Worker := do
  let l ← bwLoop w.pkt w.region
  let s ← measure l (env.clock round w.pkt.threadId.toNat) (runCode kernelBw) env.fuel start
  return { w with
    finishedBytes := env.addWritten w.pkt.readWriteMix s.finished
    execTime := s.timer.getElapsedTime }

def measureLoaded (env : Surroundings) (kernelBw : Code) (round start : Nat) (w : Worker) :
    Accessing Worker :=
  if w.pkt.threadId = 0 then latPtr env round start w
  else bwSequential env kernelBw round start w

end Accessing

/-- The worker still has the packet, the region and the chain of another. -/
def Worker.SetUpLike (w w' : Worker) : Prop :=
  w.pkt = w'.pkt ∧ w.region = w'.region ∧ w.memory = w'.memory

/-- The accesses of the bytes from `base` on. -/
def WithinRegion (base size : Nat) (o : ByteAccess) : Prop :=
  base ≤ o.address ∧ o.address < base + size

variable {may : ByteAccess → Prop} {base : Nat} {r : MemRegion} {m : Memory} {b : Bytes}

/-- The thread may access the bytes of the region, which lies in the address space. -/
structure Owned (may : ByteAccess → Prop) (base size : Nat) : Prop where
  start : base < 2 ^ 64
  fits : base + size ≤ 2 ^ 64
  may : ∀ o, WithinRegion base size o → may o

/-- The pointer is at that offset of the region. -/
def AtOffset (base : Nat) (s : Registers) (p : Nat) : Prop := s.p = u64 (base + p)

theorem Owned.atStart (h : Owned may base size) (ret : UInt64) : AtOffset base ⟨ret, base⟩ 0 :=
  (u64_eq h.start).symm

theorem Owned.address (h : Owned may base size) (hfits : p + 8 ≤ size) :
    u64 (base + p) = base + p := u64_eq (by have := h.fits; omega)

theorem Owned.loads (h : Owned may base size) (hfits : p + 8 ≤ size) (c : Nat)
    (hle : base + p ≤ c) (hlt : c < base + p + 8) : may (.load c) :=
  h.may _ ⟨by change base ≤ c; omega, by change c < base + size; omega⟩

theorem Owned.stores (h : Owned may base size) (hfits : p + 8 ≤ size) (c : Nat) (x : UInt8)
    (hle : base + p ≤ c) (hlt : c < base + p + 8) : may (.store c x) :=
  h.may _ ⟨by change base ≤ c; omega, by change c < base + size; omega⟩

namespace Accessing

theorem chase_refines (h : Owned may base r.size) (hb : Represents base r.size m b) {s : Registers}
    (hs : AtOffset base s p) : (chase s).Refines byteMemory may
      (fun s' b' p' => b' = b ∧ AtOffset base s' p') b (r.loadPointer m p) := by
  refine ⟨fun hx => ?_⟩
  by_cases hfits : p + 8 ≤ r.size
  · cases hm : m.slot p with
    | none =>
      rw [MemRegion.loadPointer, if_pos hfits, hm] at hx
      exact absurd rfl (hx _)
    | some target =>
      rw [MemRegion.loadPointer_eq hfits hm] at hx ⊢
      rw [AtOffset, h.address hfits] at hs
      have hload : (Caller.loadNumber 8 s.p : Accessing Nat).Refines byteMemory may
          (fun v b' _ => v = u64 (base + target) ∧ b' = b) b (.done () : Run Fault Unit) := by
        rw [hs]
        exact .loadNumber (h.loads hfits) ⟨hb p target hfits hm, rfl⟩
      refine (hload.bind (g := fun _ => Run.done target) ?_).ends hx
      rintro v b' - ⟨rfl, rfl⟩
      exact .done ⟨rfl, rfl⟩
  · rw [MemRegion.loadPointer, if_neg hfits] at hx
    exact absurd rfl (hx _)

theorem addWord_refines (h : Owned may base r.size) {s : Registers} (hs : AtOffset base s p) :
    (addWord s).Refines byteMemory may (fun s' b' _ => b' = b ∧ s'.p = s.p) b (r.loadWord p) := by
  refine ⟨fun hx => ?_⟩
  by_cases hfits : p + 8 ≤ r.size
  · rw [MemRegion.loadWord, if_pos hfits] at hx ⊢
    rw [AtOffset, h.address hfits] at hs
    have hload : (Caller.loadNumber 8 s.p : Accessing Nat).Refines byteMemory may
        (fun _ b' _ => b' = b) b (.done () : Run Fault Unit) := by
      rw [hs]
      exact .loadNumber (h.loads hfits) rfl
    refine (hload.bind (g := fun _ => Run.done ()) ?_).ends hx
    rintro v b' - rfl
    exact .done ⟨rfl, rfl⟩
  · rw [MemRegion.loadWord, if_neg hfits] at hx
    exact absurd rfl (hx _)

theorem kernelLat_refines (h : Owned may base r.size) (hb : Represents base r.size m b)
    {s : Registers}
    (hs : AtOffset base s p) : (kernelLat s).Refines byteMemory may
      (fun s' b' p' => b' = b ∧ AtOffset base s' p') b (MmMem.kernelLat r m p) := by
  have hchases : (Caller.loop (fun _ => chase) 256 0 s).Refines byteMemory may
      (fun s' b' p' => b' = b ∧ AtOffset base s' p') b
      (Run.loop (fun _ p => r.loadPointer m p) 256 0 p) := by
    apply Caller.Refines.loop _ ⟨rfl, hs⟩
    rintro i s b' p ⟨rfl, hs⟩
    exact chase_refines h hb hs
  apply hchases.bind
  rintro s b' p ⟨rfl, hs⟩
  apply (addWord_refines h hs).map fun _ => p
  rintro s' b'' - ⟨rfl, hp⟩
  exact ⟨rfl, hp.trans hs⟩

theorem exec_refines (h : Owned may base r.size) {s : Registers} {t : KernelState}
    (hs : AtOffset base s t.p) (x : Statement) : (exec s x).Refines byteMemory may
      (fun s' _ t' => AtOffset base s' t'.p) b (x.exec r t) := by
  cases x with
  | addWord =>
    refine Caller.Refines.map (fun _ => { t with
      ret := t.ret + t.words t.p, accesses := t.accesses ++ [Access.read t.p] })
      (addWord_refines h hs) ?_
    rintro s' b' - ⟨-, hp⟩
    exact hp.trans hs
  | storeWord =>
    refine ⟨fun hx => ?_⟩
    rw [Statement.exec] at hx ⊢
    split at hx
    · next hfits =>
      rw [if_pos hfits]
      have hp := hs
      rw [AtOffset, h.address hfits] at hp
      have hstore : (Caller.storeNumber 8 s.p s.ret.toNat : Accessing Unit).Refines byteMemory may
          (fun _ _ _ => True) b (.done () : Run Fault Unit) := by
        rw [hp]
        exact .storeNumber (h.stores hfits) trivial
      refine (hstore.bind (g := fun _ => Run.done _) ?_).ends fun _ => Run.done_ne_fault
      rintro _ b' - -
      exact .done hs
    · exact absurd rfl (hx _)
  | advance =>
    apply Caller.Refines.done
    rw [AtOffset] at hs ⊢
    simp only [hs, u64]
    omega
  | nop => exact .done hs

theorem runCode_refines (h : Owned may base r.size) {s : Registers} {t : KernelState}
    (hs : AtOffset base s t.p) (c : Code) : (runCode c s).Refines byteMemory may
      (fun s' _ t' => AtOffset base s' t'.p) b (MmMem.runCode r c t) := by
  induction c generalizing s t b with
  | nil => exact .done hs
  | cons x c ih => exact (exec_refines h hs x).bind fun s' b' t' hs' => ih hs'

theorem kernelBw_refines (h : Owned may base r.size) {c : Code} (hc : Sweeps 256 c) {s : Registers}
    (hs : AtOffset base s p) : (runCode c s).Refines byteMemory may
      (fun s' _ p' => AtOffset base s' p') b (MmMem.kernelBw r p) := by
  rw [← hc.kernelBw r ⟨0, p, fun _ => 0, [], 0⟩]
  exact (runCode_refines h hs c).map KernelState.p fun s' b' t' hs' => hs'

end Accessing

/-- The loops stand alike, with cursors that correspond. -/
def Alongside (R : σ → Bytes → τ → Prop) (s : LoopState σ) (b : Bytes) (t : LoopState τ) : Prop :=
  ∃ c, t = s.map (fun _ => c) ∧ R s.cursor b c

theorem Alongside.count {R : σ → Bytes → τ → Prop} {c : τ} {s : LoopState σ}
    (hR : R s.cursor b c) (l : MeasureLoop) (clock : Nat → Int) :
    (l.count clock s).1 = (l.count clock (s.map fun _ => c)).1 ∧
      Alongside R (l.count clock s).2 b (l.count clock (s.map fun _ => c)).2 := by
  rw [MeasureLoop.count_map]
  refine ⟨rfl, c, rfl, ?_⟩
  rw [MeasureLoop.count_cursor]
  exact hR

namespace Accessing

variable {l : MeasureLoop} {clock : Nat → Int} {kernel : Nat → σ → Accessing σ}
  {kernel' : Nat → τ → Run Fault τ} {R : σ → Bytes → τ → Prop} {s : LoopState σ} {t : LoopState τ}

theorem trip_refines
    (hk : ∀ i c b c', R c b c' → (kernel i c).Refines byteMemory may R b (kernel' i c'))
    (h : Alongside R s b t) (i : Nat) : (trip l clock kernel i s).Refines byteMemory may
      (fun x b' y => x.1 = y.1 ∧ Alongside R x.2 b' y.2) b
      (l.trip clock kernel' i t) := by
  obtain ⟨c, rfl, hR⟩ := h
  apply (hk i _ _ _ hR).bind
  intro cursor b' cursor' hR'
  exact .done (Alongside.count hR' l clock)

theorem forLoop_refines
    (hk : ∀ i c b c', R c b c' → (kernel i c).Refines byteMemory may R b (kernel' i c'))
    (h : Alongside R s b t) (n i : Nat) : (forLoop l clock kernel n i s).Refines byteMemory may
      (fun x b' y => x.1 = y.1 ∧ Alongside R x.2 b' y.2) b
      (l.forLoop clock kernel' n i t) := by
  induction n generalizing i s t b with
  | zero => exact .done ⟨rfl, h⟩
  | succ n ih =>
    apply (trip_refines hk h i).bind
    rintro ⟨broke, s⟩ b' ⟨_, t⟩ ⟨rfl, h'⟩
    cases broke with
    | true => exact .done ⟨rfl, h'⟩
    | false => exact ih h' (i + 1)

theorem whileTrue_refines {restart : σ → σ} {restart' : τ → τ}
    (hk : ∀ i c b c', R c b c' → (kernel i c).Refines byteMemory may R b (kernel' i c'))
    (hr : ∀ c b c', R c b c' → R (restart c) b (restart' c')) (h : Alongside R s b t)
    (fuel : Nat) : (whileTrue l clock kernel restart fuel s).Refines byteMemory may
      (Alongside R) b (l.whileTrue clock kernel' restart' fuel t) := by
  induction fuel generalizing s t b with
  | zero => exact ⟨fun _ => Run.Matches.running⟩
  | succ fuel ih =>
    obtain ⟨c, rfl, hR⟩ := h
    have hrestart : Alongside R { s with cursor := restart s.cursor } b
        { s.map (fun _ => c) with cursor := restart' c } := ⟨restart' c, rfl, hr _ _ _ hR⟩
    apply (forLoop_refines hk hrestart l.loopCount 0).bind
    rintro ⟨i, s⟩ b' ⟨_, t⟩ ⟨rfl, h'⟩
    dsimp only
    split
    · exact .done h'
    · exact ih h'

theorem measure_refines {kernel : Registers → Accessing Registers} {kernel' : Nat → Run Fault Nat}
    {I : Bytes → Prop} (h : Owned may base r.size) (hI : I b)
    (hk : ∀ s b p, I b → AtOffset base s p → (kernel s).Refines byteMemory may
      (fun s' b' p' => I b' ∧ AtOffset base s' p') b (kernel' p)) (fuel : Nat) :
    (measure l clock kernel fuel base).Refines byteMemory may
      (Alongside fun s b p => I b ∧ AtOffset base s p) b
      (l.run clock (fun _ => kernel') (fun _ => 0) fuel 0) := by
  apply whileTrue_refines
  · rintro - s b p ⟨hI, hs⟩
    exact hk s b p hI hs
  · rintro s b p ⟨hI, -⟩
    exact ⟨hI, h.atStart s.ret⟩
  · exact ⟨0, rfl, hI, h.atStart 0⟩

theorem latPtr_refines {w : Worker} (h : Owned may base w.region.size)
    (hb : Represents base w.region.size w.memory b) (env : Surroundings) (round : Nat) :
    (latPtr env round base w).Refines byteMemory may
      (fun w' b' w'' => b' = b ∧ w' = w'' ∧ w'.SetUpLike w) b (w.latPtr env round) := by
  rw [Worker.latPtr, MmMem.latPtr, Run.bind_assoc]
  apply Caller.Refines.lift_bind
  intro l _
  apply (measure_refines (I := (· = b)) h rfl ?_ env.fuel).bind
  · rintro s b' _ ⟨p, rfl, rfl, -⟩
    exact .done ⟨rfl, rfl, rfl, rfl, rfl⟩
  · rintro s b p rfl hs
    exact kernelLat_refines h hb hs

theorem bwSequential_refines {w : Worker} (h : Owned may base w.region.size) {kernelBw : Code}
    (hkernel : Sweeps 256 kernelBw) (env : Surroundings) (round : Nat) :
    (bwSequential env kernelBw round base w).Refines byteMemory may
      (fun w' _ w'' => w' = w'' ∧ w'.SetUpLike w) b (w.bwSequential env round) := by
  rw [Worker.bwSequential, MmMem.bwSequential, Run.bind_assoc]
  apply Caller.Refines.lift_bind
  intro l _
  apply (measure_refines (I := fun _ => True) h trivial ?_ env.fuel).bind
  · rintro s b' _ ⟨p, rfl, -⟩
    exact .done ⟨rfl, rfl, rfl, rfl⟩
  · rintro s b p - hs
    exact (kernelBw_refines h hkernel hs).mono fun s' b' p' hs' => ⟨trivial, hs'⟩

/-- A worker that chases leaves the memory as it is; the chain of one that does not is not used. -/
theorem measureLoaded_refines {w : Worker} (h : Owned may base w.region.size)
    (hb : w.pkt.threadId = 0 → Represents base w.region.size w.memory b) {kernelBw : Code}
    (hkernel : Sweeps 256 kernelBw) (env : Surroundings) (round : Nat) :
    (measureLoaded env kernelBw round base w).Refines byteMemory may
      (fun w' b' w'' => (w.pkt.threadId = 0 → b' = b) ∧ w' = w'' ∧ w'.SetUpLike w) b
      (w.measureLoaded env round) := by
  rw [measureLoaded, Worker.measureLoaded]
  split
  · next hzero =>
    exact (latPtr_refines h (hb hzero) env round).mono fun w' b' w'' hw => ⟨fun _ => hw.1, hw.2⟩
  · next hne =>
    exact (bwSequential_refines h hkernel env round).mono fun w' b' w'' hw =>
      ⟨fun hzero => absurd hzero hne, hw⟩

end Accessing

end MmMem

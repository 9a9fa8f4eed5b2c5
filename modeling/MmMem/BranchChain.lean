import MmMem.Library.BranchMachine
import MmMem.TimedLoops
import Mathlib.Algebra.BigOperators.Group.List.Basic

namespace MmMem
open Prog
set_option autoImplicit true

/-- The assembly of `branch_chain` for an instruction set. -/
structure BranchCode (ι σ : Type) where
  exec : ι → σ → σ × Option Nat
  /-- what stands in front of the forward branches -/
  prologue : List ι
  branch : Nat → ι
  padding : ι
  decrement : ι
  loopBranch : Nat → ι

/-- The code of a chain from its label `1` on; `pads` says how much padding `.p2align` puts behind
each branch. -/
def BranchCode.code (c : BranchCode ι σ) (pads : List Nat) : List ι :=
  c.prologue ++ forwardBranches c.branch c.padding pads c.prologue.length ++
    [c.decrement, c.loopBranch 0]

inductive X86Instr where
  /-- `test %[rounds], %[rounds]` -/
  | test
  | jnz (target : Nat)
  | jmp (target : Nat)
  /-- `sub $1, %[rounds]` -/
  | sub
  | nop
  deriving Repr, DecidableEq

structure X86State where
  rounds : UInt64
  zf : Bool
  deriving Repr, DecidableEq

def X86Instr.exec : X86Instr → X86State → X86State × Option Nat
  | .test, s => ({ s with zf := s.rounds &&& s.rounds == 0 }, none)
  | .jnz target, s => (s, if s.zf then none else some target)
  | .jmp target, s => (s, some target)
  | .sub, s => ({ rounds := s.rounds - 1, zf := s.rounds - 1 == 0 }, none)
  | .nop, s => (s, none)

def x86BranchCode (conditional : Bool) : BranchCode X86Instr X86State where
  exec := X86Instr.exec
  prologue := if conditional then [.test] else []
  branch := if conditional then .jnz else .jmp
  padding := .nop
  decrement := .sub
  loopBranch := .jnz

inductive ArmInstr where
  /-- `cbnz %[rounds], target` -/
  | cbnz (target : Nat)
  | b (target : Nat)
  /-- `sub %[rounds], %[rounds], #1`, which sets no flags -/
  | sub
  | nop
  deriving Repr, DecidableEq

def ArmInstr.exec : ArmInstr → UInt64 → UInt64 × Option Nat
  | .cbnz target, rounds => (rounds, if rounds = 0 then none else some target)
  | .b target, rounds => (rounds, some target)
  | .sub, rounds => (rounds - 1, none)
  | .nop, rounds => (rounds, none)

def armBranchCode (conditional : Bool) : BranchCode ArmInstr UInt64 where
  exec := ArmInstr.exec
  prologue := []
  branch := if conditional then .cbnz else .b
  padding := .nop
  decrement := .sub
  loopBranch := .cbnz

/-- `branch_chain`, for at most that many instructions; `enter` is the state its assembly is
entered in. -/
def branchChain (c : BranchCode ι σ) (enter : UInt64 → σ) (pads : List Nat) (fuel : Nat)
    (rounds : UInt64) : Run Fault (Core ι σ) :=
  if rounds = 0 then .done (.start (enter rounds))
  else Core.run c.exec (c.code pads) fuel (.start (enter rounds))

namespace BranchCode

/-- The forward branches of a trip. -/
def forward (c : BranchCode ι σ) (pads : List Nat) : List ι :=
  (forwardTargets pads c.prologue.length).map c.branch

/-- What a trip executes. -/
def trip (c : BranchCode ι σ) (pads : List Nat) : List ι :=
  c.prologue ++ c.forward pads ++ [c.decrement, c.loopBranch 0]

/-- What the trips take: every forward branch, and the loop branch in all of them but the last. -/
def takenIn (c : BranchCode ι σ) (pads : List Nat) : Nat → List ι
  | 0 => []
  | n + 1 => (List.replicate n (c.forward pads ++ [c.loopBranch 0])).flatten ++ c.forward pads

/-- What the code of an instruction set is to do with its counter; `Ready` is the state between the
prologue and the decrement. -/
structure Counts (c : BranchCode ι σ) (rounds : σ → UInt64) (Ready : σ → Prop) : Prop where
  prologue : ∀ s, rounds s ≠ 0 → ∃ s', Ready s' ∧ rounds s' = rounds s ∧ ∀ after,
    Path c.exec (c.prologue ++ after) 0 s c.prologue [] c.prologue.length s'
  branch : ∀ s target, Ready s → c.exec (c.branch target) s = (s, some target)
  decrement : ∀ s, ∃ s', c.exec c.decrement s = (s', none) ∧ rounds s' = rounds s - 1 ∧
    ∀ target, c.exec (c.loopBranch target) s' =
      (s', if rounds s - 1 = 0 then none else some target)
  padding : c.padding ∉ c.prologue ∧ (∀ target, c.padding ≠ c.branch target) ∧
    c.padding ≠ c.decrement ∧ ∀ target, c.padding ≠ c.loopBranch target

variable {c : BranchCode ι σ} {rounds : σ → UInt64} {Ready : σ → Prop}

theorem forward_length (c : BranchCode ι σ) (pads : List Nat) :
    (c.forward pads).length = pads.length := by
  rw [forward, List.length_map, forwardTargets_length]

theorem takenIn_length (c : BranchCode ι σ) (pads : List Nat) (n : Nat) :
    (c.takenIn pads (n + 1)).length = (n + 1) * (pads.length + 1) - 1 := by
  rw [takenIn, List.length_append, List.length_flatten, List.map_replicate, List.sum_replicate,
    List.length_append, List.length_singleton, forward_length, Nat.succ_mul, smul_eq_mul]
  rfl

theorem Counts.padding_not_mem (h : c.Counts rounds Ready) (pads : List Nat) (n : Nat) :
    c.padding ∉ (List.replicate n (c.trip pads)).flatten := by
  obtain ⟨hprologue, hbranch, hdecrement, hloop⟩ := h.padding
  intro hmem
  obtain ⟨l, hl, hmem⟩ := List.mem_flatten.1 hmem
  rw [List.eq_of_mem_replicate hl, trip, forward] at hmem
  simp only [List.mem_append, List.mem_map, List.mem_cons, List.not_mem_nil, or_false] at hmem
  rcases hmem with (hmem | ⟨target, -, htarget⟩) | hmem | hmem
  · exact hprologue hmem
  · exact hbranch target htarget.symm
  · exact hdecrement hmem
  · exact hloop 0 hmem

/-- A trip, up to the decision of the loop branch. -/
theorem Counts.trip (h : c.Counts rounds Ready) (pads : List Nat) (hs : rounds s ≠ 0) :
    ∃ s', rounds s' = rounds s - 1 ∧
      if rounds s - 1 = 0 then
        Path c.exec (c.code pads) 0 s (c.trip pads) (c.forward pads) (c.code pads).length s'
      else Path c.exec (c.code pads) 0 s (c.trip pads) (c.forward pads ++ [c.loopBranch 0]) 0 s' := by
  obtain ⟨t, hready, ht, hprologue⟩ := h.prologue s hs
  obtain ⟨s', hdecrement, hs', hloop⟩ := h.decrement t
  rw [ht] at hs' hloop
  let chain := forwardBranches c.branch c.padding pads c.prologue.length
  have hforward := Path.forward c.padding (fun target => h.branch t target hready) pads
    c.prologue [c.decrement, c.loopBranch 0]
  have hbody := (hprologue (chain ++ [c.decrement, c.loopBranch 0])).trans
    (by rw [← List.append_assoc]; exact hforward)
  rw [← List.append_assoc] at hbody
  -- the two instructions behind the chain
  have hfirst : (c.code pads)[(c.prologue ++ chain).length]? = some c.decrement :=
    getElem?_after (c.prologue ++ chain) c.decrement [c.loopBranch 0]
  have hsecond : (c.code pads)[(c.prologue ++ chain).length + 1]? = some (c.loopBranch 0) := by
    have hget := getElem?_after (c.prologue ++ chain ++ [c.decrement]) (c.loopBranch 0) []
    have hlength : (c.prologue ++ chain ++ [c.decrement]).length =
        (c.prologue ++ chain).length + 1 := List.length_append
    rw [hlength, List.append_assoc (c.prologue ++ chain)] at hget
    exact hget
  refine ⟨s', hs', ?_⟩
  by_cases hlast : rounds s - 1 = 0
  · rw [if_pos hlast]
    have hend : (c.code pads).length = (c.prologue ++ chain).length + 1 + 1 := by
      rw [code, List.length_append]
      rfl
    have hleave := hbody.trans (.next hfirst hdecrement (.next hsecond
      ((hloop 0).trans (by rw [if_pos hlast])) .nil))
    rw [hend]
    rwa [List.nil_append, List.append_nil] at hleave
  · rw [if_neg hlast]
    have hback := hbody.trans (.next hfirst hdecrement (.jump hsecond
      ((hloop 0).trans (by rw [if_neg hlast])) .nil))
    rwa [List.nil_append] at hback

/-- The run for a counter that is not zero, and where it leaves the code. -/
theorem Counts.path (h : c.Counts rounds Ready) (pads : List Nat) (n : Nat)
    (hs : (rounds s).toNat = n + 1) : ∃ s', Path c.exec (c.code pads) 0 s
      (List.replicate (n + 1) (c.trip pads)).flatten (c.takenIn pads (n + 1)) (c.code pads).length s' := by
  have hrounds : ∀ n s, (rounds s).toNat = n + 1 → rounds s ≠ 0 ∧ (rounds s - 1).toNat = n := by
    intro n s hs
    have hle : 1 ≤ rounds s := by
      rw [UInt64.le_iff_toNat_le, hs]
      exact Nat.succ_le_succ (Nat.zero_le n)
    refine ⟨fun h0 => ?_, by rw [UInt64.toNat_sub_of_le _ _ hle, hs]; rfl⟩
    rw [h0] at hs
    cases hs
  have hzero : ∀ r : UInt64, r = 0 ↔ r.toNat = 0 := fun r => UInt64.toNat_inj.symm
  have hback : ∀ n s, (rounds s).toNat = n + 2 → ∃ s', (rounds s').toNat = n + 1 ∧
      Path c.exec (c.code pads) 0 s (c.trip pads) (c.forward pads ++ [c.loopBranch 0]) 0 s' := by
    intro n s hs
    obtain ⟨hne, hsub⟩ := hrounds (n + 1) s hs
    obtain ⟨s', hs', hpath⟩ := h.trip pads hne
    rw [if_neg (by rw [hzero, hsub]; exact Nat.succ_ne_zero n)] at hpath
    exact ⟨s', by rw [hs', hsub], hpath⟩
  have hleave : ∀ s, (rounds s).toNat = 1 → ∃ s', (rounds s').toNat = 0 ∧
      Path c.exec (c.code pads) 0 s (c.trip pads) (c.forward pads) (c.code pads).length s' := by
    intro s hs
    obtain ⟨hne, hsub⟩ := hrounds 0 s hs
    obtain ⟨s', hs', hpath⟩ := h.trip pads hne
    rw [if_pos (by rw [hzero, hsub])] at hpath
    exact ⟨s', by rw [hs', hsub], hpath⟩
  obtain ⟨s', -, hpath⟩ := Path.countdown (S := fun n s => (rounds s).toNat = n) hback hleave n s hs
  exact ⟨s', hpath⟩

/-- The chain ends and has taken what its trips take, without executing padding. -/
theorem Counts.branchChain (h : c.Counts rounds Ready) {enter : UInt64 → σ}
    (henter : ∀ r, rounds (enter r) = r) (pads : List Nat) (r : UInt64) :
    ∃ steps core, (∀ fuel ≥ steps, MmMem.branchChain c enter pads fuel r = .done core) ∧
      core.taken = c.takenIn pads r.toNat ∧ c.padding ∉ core.executed := by
  by_cases hr : r = 0
  · subst hr
    exact ⟨0, _, fun fuel _ => if_pos rfl, rfl, List.not_mem_nil⟩
  · obtain ⟨n, hn⟩ := Nat.exists_eq_succ_of_ne_zero (mt (UInt64.toNat_inj (b := 0)).1 hr)
    obtain ⟨s', hpath⟩ := h.path pads n (s := enter r) (by rw [henter, hn])
    rw [hn]
    let executed := (List.replicate (n + 1) (c.trip pads)).flatten
    refine ⟨executed.length + 1, ⟨(c.code pads).length, s', executed, c.takenIn pads (n + 1)⟩,
      fun fuel hfuel => ?_, rfl, h.padding_not_mem pads (n + 1)⟩
    rw [MmMem.branchChain, if_neg hr]
    exact hpath.run_done (Nat.le_refl _) hfuel

end BranchCode

theorem x86_counts (conditional : Bool) : (x86BranchCode conditional).Counts X86State.rounds
    fun s => conditional = true → s.zf = false where
  prologue s hs := by
    cases conditional with
    | false => exact ⟨s, nofun, rfl, fun _ => .nil⟩
    | true =>
      refine ⟨{ s with zf := s.rounds &&& s.rounds == 0 }, fun _ => ?_, rfl, fun after => ?_⟩
      · rw [UInt64.and_self]
        exact beq_eq_false_iff_ne.2 hs
      · exact .next rfl rfl .nil
  branch s target hs := by
    cases conditional with
    | false => rfl
    | true =>
      change (s, if s.zf then none else some target) = _
      rw [hs rfl]
      rfl
  decrement s := by
    refine ⟨_, rfl, rfl, fun target => ?_⟩
    change (_, if s.rounds - 1 == 0 then none else some target) = _
    simp only [beq_iff_eq]
  padding := by
    cases conditional with
    | false => exact ⟨List.not_mem_nil, nofun, nofun, nofun⟩
    | true => exact ⟨by decide, nofun, nofun, nofun⟩

theorem arm_counts (conditional : Bool) : (armBranchCode conditional).Counts id (· ≠ 0) where
  prologue s hs := ⟨s, hs, rfl, fun _ => .nil⟩
  branch s target hs := by
    cases conditional with
    | false => rfl
    | true =>
      change (s, if s = 0 then none else some target) = _
      rw [if_neg hs]
  decrement s := ⟨_, rfl, rfl, fun _ => rfl⟩
  padding := by
    cases conditional with
    | false => exact ⟨List.not_mem_nil, nofun, nofun, nofun⟩
    | true => exact ⟨List.not_mem_nil, nofun, nofun, nofun⟩

/-- What `taken_branches` promises of a chain, whose branches have padding behind them: it ends and
has taken so many branches, those of its trips, and executed no padding. -/
def BranchCode.TakesPromised (c : BranchCode ι σ) (enter : UInt64 → σ) (pads : List Nat)
    (rounds : UInt64) : Prop :=
  ∃ steps core, (∀ fuel ≥ steps, branchChain c enter pads fuel rounds = .done core) ∧
    core.taken.length = takenBranches pads.length rounds.toNat ∧
    core.taken = c.takenIn pads rounds.toNat ∧ c.padding ∉ core.executed

theorem takenBranches_succ (hbranches : branches + 1 < 2 ^ 32)
    (hrounds : (n + 1) * (branches + 1) < 2 ^ 64) :
    takenBranches branches (n + 1) = (n + 1) * (branches + 1) - 1 := by
  have hpos : 0 < (n + 1) * (branches + 1) := Nat.mul_pos (Nat.succ_pos n) (Nat.succ_pos branches)
  rw [takenBranches, if_neg (Nat.succ_ne_zero n), u32_eq hbranches, u64_eq hrounds,
    u64Sub_eq hpos hrounds]

theorem BranchCode.Counts.takesPromised_iff {c : BranchCode ι σ} {rounds : σ → UInt64}
    {Ready : σ → Prop} (h : c.Counts rounds Ready) {enter : UInt64 → σ}
    (henter : ∀ r, rounds (enter r) = r) (pads : List Nat) (r : UInt64) :
    c.TakesPromised enter pads r ↔
      (c.takenIn pads r.toNat).length = takenBranches pads.length r.toNat := by
  constructor
  · rintro ⟨steps, core, -, hlength, htaken, -⟩
    rw [← htaken, hlength]
  · intro hlength
    obtain ⟨steps, core, hdone, htaken, hpadding⟩ := h.branchChain henter pads r
    exact ⟨steps, core, hdone, by rw [htaken, hlength], htaken, hpadding⟩

theorem BranchCode.Counts.takesPromised {c : BranchCode ι σ} {rounds : σ → UInt64}
    {Ready : σ → Prop} (h : c.Counts rounds Ready) {enter : UInt64 → σ}
    (henter : ∀ r, rounds (enter r) = r) (pads : List Nat) (r : UInt64)
    (hpads : pads.length + 1 < 2 ^ 32) (hr : r.toNat * (pads.length + 1) < 2 ^ 64) :
    c.TakesPromised enter pads r := by
  rw [h.takesPromised_iff henter]
  cases hn : r.toNat with
  | zero => rfl
  | succ n =>
    rw [hn] at hr
    rw [takenIn_length, takenBranches_succ hpads hr]

def BranchCase.conditional (kernel : BranchCase) : Bool := kernel.type = "conditional".toList

/-- `kernel.run` for an instruction set: the batches run so far and the branches each has taken. -/
def BranchCase.run (c : Bool → BranchCode ι σ) (enter : UInt64 → σ)
    (pads : BranchCase → List Nat) (steps : Nat) (kernel : BranchCase) (rounds : Nat)
    (batches : List Nat) : Run Fault (List Nat) := do
  let core ← branchChain (c kernel.conditional) enter (pads kernel) steps (.ofNat rounds)
  return batches ++ [core.taken.length]

variable {D : Type} [LE D] [DecidableLE D] {getElapsedTime : Int → D}

/-- Batches that each take as many branches are counted by the calls of the kernel. -/
theorem branchLoop_batches {run : Nat → List Nat → Run Fault (List Nat)} {s s' : BranchState (List Nat)}
    (hrun : ∀ batches, run batchRounds batches = .done (batches ++ [perBatch]))
    (hs : s.cursor = List.replicate s.calls perBatch)
    (h : branchLoop getElapsedTime run clock batchBranches sampleDuration fuel s = .done s') :
    s'.cursor = List.replicate s'.calls perBatch := by
  induction fuel generalizing s with
  | zero => cases h
  | succ fuel ih =>
    rw [branchLoop, hrun, Run.done_bind] at h
    have hnext : s.cursor ++ [perBatch] = List.replicate (s.calls + 1) perBatch := by
      rw [hs, List.replicate_succ']
    dsimp only at h
    split at h
    · cases h
      exact hnext
    · exact ih hnext h

theorem branchTp_batches [Zero D] {counter : CycleCounter D}
    {run : BranchCase → Nat → List Nat → Run Fault (List Nat)} {pkt : BrPredThreadPacket D}
    {result : BranchResult D (List Nat)} {kernel : BranchCase}
    (hkernel : branchCases[pkt.caseIndex]? = some kernel)
    (hrun : ∀ batches, run kernel batchRounds batches = .done (batches ++ [perBatch]))
    (h : branchTp getElapsedTime counter run clock fuel pkt [] = .done result) :
    result.state.cursor = List.replicate result.state.calls perBatch := by
  rw [branchTp, vectorAt, hkernel] at h
  dsimp only at h
  rw [Run.done_bind, hrun, Run.done_bind] at h
  obtain ⟨s, hloop, h⟩ := Run.bind_eq_done.1 h
  cases h
  exact branchLoop_batches hrun rfl hloop

theorem branchLoop_ends {run : Nat → σ → Run Fault σ} {s : BranchState σ}
    (hrun : ∀ c, ∃ c', run batchRounds c = .done c')
    (hs : s.timer.elapsedTimeNs = s.timer.timePointBegin - clock 1)
    (hreached : sampleDuration ≤ getElapsedTime (clock n - clock 1)) (hn : s.calls < n) :
    ∃ fuel s', branchLoop getElapsedTime run clock batchBranches sampleDuration fuel s = .done s' := by
  induction hd : n - s.calls generalizing s with
  | zero => omega
  | succ d ih =>
    obtain ⟨c', hc'⟩ := hrun s.cursor
    have helapsed : (s.timer.endTimer (clock (s.calls + 1))).elapsedTimeNs =
        clock (s.calls + 1) - clock 1 := by
      rw [Timer.endTimer, hs]
      dsimp only
      omega
    let t : BranchState σ := { s with
      cursor := c'
      calls := s.calls + 1
      finishedBranches := u64 (s.finishedBranches + batchBranches)
      timer := s.timer.endTimer (clock (s.calls + 1)) }
    by_cases hstop : sampleDuration ≤ getElapsedTime (clock (s.calls + 1) - clock 1)
    · refine ⟨1, t, ?_⟩
      rw [branchLoop, hc', Run.done_bind]
      dsimp only
      rw [helapsed, if_pos hstop]
      rfl
    · have hlt : s.calls + 1 < n := by
        by_contra hge
        have heq : s.calls + 1 = n := by omega
        exact hstop (heq ▸ hreached)
      obtain ⟨fuel, s', hrest⟩ := ih (s := t.resumeTimer) helapsed hlt
        (show n - (s.calls + 1) = d by omega)
      refine ⟨fuel + 1, s', ?_⟩
      rw [branchLoop, hc', Run.done_bind]
      dsimp only
      rw [helapsed, if_neg hstop]
      exact hrest

/-- `finished_branches` is the number of branches that the batches after the warm-up have taken, in
64 bits, if each batch may execute enough instructions to end. -/
def CountsTimed (c : Bool → BranchCode ι σ) (enter : UInt64 → σ) (pads : BranchCase → List Nat) :
    Prop :=
  ∀ (D : Type) [LinearOrder D] [Zero D] (getElapsedTime : Int → D) (pkt : BrPredThreadPacket D),
    ∃ steps, ∀ more ≥ steps, ∀ counter clock fuel result,
      branchTp getElapsedTime counter (BranchCase.run c enter pads more) clock fuel pkt [] =
        .done result →
      result.state.cursor.length = result.state.calls ∧
        result.state.finishedBranches = u64 result.state.cursor.tail.sum

theorem branchCases_branches (h : kernel ∈ branchCases) : kernel.branches ≤ 128 := by
  revert kernel
  decide

theorem BranchCase.run_eq {c : Bool → BranchCode ι σ} {rounds : σ → UInt64} {Ready : Bool → σ → Prop}
    (h : ∀ conditional, (c conditional).Counts rounds (Ready conditional)) {enter : UInt64 → σ}
    (henter : ∀ r, rounds (enter r) = r) {pads : BranchCase → List Nat} {kernel : BranchCase}
    (hkernel : kernel ∈ branchCases) (hpads : (pads kernel).length = kernel.branches) :
    ∃ steps, ∀ more ≥ steps, ∀ batches, kernel.run c enter pads more batchRounds batches =
      .done (batches ++ [takenBranches kernel.branches batchRounds]) := by
  have hle := branchCases_branches hkernel
  have hrounds : (UInt64.ofNat batchRounds).toNat = batchRounds := rfl
  obtain ⟨steps, core, hdone, hlength, -, -⟩ := (h kernel.conditional).takesPromised henter
    (pads kernel) (.ofNat batchRounds) (by omega) (by rw [hrounds, batchRounds]; omega)
  refine ⟨steps, fun more hmore batches => ?_⟩
  rw [BranchCase.run, hdone more hmore, Run.done_bind, hlength, hpads, hrounds]
  rfl

theorem BranchCode.Counts.countsTimed {c : Bool → BranchCode ι σ} {rounds : σ → UInt64}
    {Ready : Bool → σ → Prop} (h : ∀ conditional, (c conditional).Counts rounds (Ready conditional))
    {enter : UInt64 → σ} (henter : ∀ r, rounds (enter r) = r) {pads : BranchCase → List Nat}
    (hpads : ∀ kernel ∈ branchCases, (pads kernel).length = kernel.branches) :
    CountsTimed c enter pads := by
  intro D _ _ getElapsedTime pkt
  cases hkernel : branchCases[pkt.caseIndex]? with
  | none =>
    refine ⟨0, fun more _ counter clock fuel result hdone => ?_⟩
    rw [branchTp, vectorAt, hkernel] at hdone
    cases hdone
  | some kernel =>
    have hmem := List.mem_of_getElem? hkernel
    obtain ⟨steps, hrun⟩ := BranchCase.run_eq h henter hmem (hpads kernel hmem)
    refine ⟨steps, fun more hmore counter clock fuel result hdone => ?_⟩
    have hbatches := branchTp_batches hkernel (hrun more hmore) hdone
    obtain ⟨kernel', hkernel', haccounted⟩ := branchTp_accounted hdone
    rw [hkernel] at hkernel'
    cases hkernel'
    refine ⟨by rw [hbatches, List.length_replicate], ?_⟩
    rw [haccounted.counted, hbatches, List.tail_replicate, List.sum_replicate, smul_eq_mul,
      Nat.mul_comm]

/-- The reported branches are the executed ones: for branches that fit an `unsigned` with the loop
branch, a run of either chain takes what `taken_branches` says, and `branch_tp` adds up what the
timed batches take, modulo 2^64. -/
theorem taken_branches_executed (conditional : Bool) (branches : UInt32) (pads : List Nat)
    (rounds : UInt64) (hpads : pads.length = branches.toNat) (hbranches : branches.toNat + 1 < 2 ^ 32)
    (hrounds : rounds.toNat * (branches.toNat + 1) < 2 ^ 64) :
    (∀ zf, (x86BranchCode conditional).TakesPromised (X86State.mk · zf) pads rounds) ∧
    (armBranchCode conditional).TakesPromised id pads rounds ∧
    ∀ padsOf : BranchCase → List Nat,
      (∀ kernel ∈ branchCases, (padsOf kernel).length = kernel.branches) →
        (∀ zf, CountsTimed x86BranchCode (X86State.mk · zf) padsOf) ∧
          CountsTimed armBranchCode id padsOf := by
  rw [← hpads] at hbranches hrounds
  refine ⟨fun zf => ?_, ?_, fun padsOf hpadsOf => ⟨fun zf => ?_, ?_⟩⟩
  · exact (x86_counts conditional).takesPromised (fun _ => rfl) pads rounds hbranches hrounds
  · exact (arm_counts conditional).takesPromised (fun _ => rfl) pads rounds hbranches hrounds
  · exact BranchCode.Counts.countsTimed x86_counts (fun _ => rfl) hpadsOf
  · exact BranchCode.Counts.countsTimed arm_counts (fun _ => rfl) hpadsOf

/-- Two conditional branches over padding, three rounds. -/
theorem taken_branches_executed_three :
    (x86BranchCode true).TakesPromised (X86State.mk · false) [3, 0] 3 ∧
      (armBranchCode true).TakesPromised id [3, 0] 3 := by
  obtain ⟨hx86, harm, -⟩ := taken_branches_executed true 2 [3, 0] 3 rfl (by decide) (by decide)
  exact ⟨hx86 false, harm⟩

/-- A chain of 2^32 - 1 branches, which `branches + 1` does not count, and more than 2^64 branches
in timed batches, which `finished_branches` does not. -/
theorem branch_counts_truncated :
    let pads := List.replicate 4294967295 0
    let padsOf := fun kernel : BranchCase => List.replicate kernel.branches 3
    ((1 : UInt64).toNat * (pads.length + 1) < 2 ^ 64 ∧
      ¬ (x86BranchCode false).TakesPromised (X86State.mk · false) pads 1) ∧
    ∃ steps fuel result, branchTp (D := Int) id ⟨none, none, .ok 0⟩
        (BranchCase.run x86BranchCode (X86State.mk · false) padsOf steps) (fun n => 100000 * n) fuel
        ⟨0, 4294967295000000000⟩ [] = .done result ∧
      result.state.finishedBranches ≠ result.state.cursor.tail.sum := by
  intro pads padsOf
  have hlength : pads.length = 4294967295 := List.length_replicate
  refine ⟨⟨?_, fun h => ?_⟩, ?_⟩
  · rw [hlength]
    decide
  · have htaken := ((x86_counts false).takesPromised_iff (fun _ => rfl) pads 1).1 h
    rw [UInt64.toNat_one, BranchCode.takenIn_length, hlength] at htaken
    exact absurd htaken (by decide)
  · let clock : Nat → Int := fun n => 100000 * n
    let enter : UInt64 → X86State := (X86State.mk · false)
    let kernel := branchCase 8 4 false
    have hbatch : takenBranches kernel.branches batchRounds = 589823 := by decide
    have hbatches : ∃ steps, ∀ more ≥ steps, ∀ batches,
        kernel.run x86BranchCode enter padsOf more batchRounds batches =
          .done (batches ++ [takenBranches kernel.branches batchRounds]) :=
      BranchCase.run_eq x86_counts (fun _ => rfl) List.mem_cons_self rfl
    obtain ⟨steps, hbatches⟩ := hbatches
    have hrun := hbatches steps (Nat.le_refl steps)
    have hloop : ∃ fuel s, branchLoop id (kernel.run x86BranchCode enter padsOf steps) clock
        (takenBranches kernel.branches batchRounds) 4294967295000000000 fuel
        ⟨1, 0, .startTimer (clock 1), [] ++ [takenBranches kernel.branches batchRounds]⟩ = .done s :=
      branchLoop_ends (n := 42949672950001) (fun c => ⟨_, hrun c⟩) rfl (by decide) (by decide)
    obtain ⟨fuel, s, hloop⟩ := hloop
    have hdone : branchTp (D := Int) id ⟨none, none, .ok 0⟩
        (BranchCase.run x86BranchCode enter padsOf steps) clock fuel ⟨0, 4294967295000000000⟩ [] =
          .done ⟨s.timer.elapsedTimeNs, 0, [], s⟩ := by
      rw [branchTp, show vectorAt branchCases 0 = .done kernel from rfl, Run.done_bind, hrun,
        Run.done_bind]
      dsimp only
      rw [hloop]
      rfl
    refine ⟨steps, fuel, _, hdone, fun he => ?_⟩
    obtain ⟨_, -, haccounted⟩ := branchTp_accounted hdone
    have hreached : (4294967295000000000 : Int) ≤ s.timer.elapsedTimeNs := haccounted.reached
    have helapsed : s.timer.elapsedTimeNs = 100000 * s.calls - 100000 * (1 : Nat) :=
      haccounted.elapsed
    have hcursor : s.cursor = List.replicate s.calls (takenBranches kernel.branches batchRounds) :=
      branchTp_batches rfl hrun hdone
    have hlt : s.finishedBranches < 2 ^ 64 := by
      rw [show s.finishedBranches = _ from haccounted.counted]
      exact u64_lt _
    rw [show s.finishedBranches = _ from he, hcursor, List.tail_replicate, List.sum_replicate,
      smul_eq_mul, hbatch] at hlt
    omega

end MmMem

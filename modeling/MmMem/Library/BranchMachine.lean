import MmMem.Library.BoundedRun

namespace Prog
set_option autoImplicit true

/-- A machine that executes a list of instructions, with the instructions it has executed and the
branches among them that it has taken. -/
structure Core (ι σ : Type) where
  pc : Nat
  state : σ
  executed : List ι
  taken : List ι

def Core.start (s : σ) : Core ι σ := { pc := 0, state := s, executed := [], taken := [] }

/-- One instruction; `exec` gives the state after it and, of a branch that is taken, the target. -/
def Core.step (exec : ι → σ → σ × Option Nat) (code : List ι) (c : Core ι σ) : Option (Core ι σ) :=
  code[c.pc]?.map fun i =>
    match exec i c.state with
    | (s, none) => { c with pc := c.pc + 1, state := s, executed := c.executed ++ [i] }
    | (s, some target) =>
      { pc := target, state := s, executed := c.executed ++ [i], taken := c.taken ++ [i] }

/-- The machine until it leaves its code, for at most that many instructions. -/
def Core.run (exec : ι → σ → σ × Option Nat) (code : List ι) : Nat → Core ι σ → Run ε (Core ι σ)
  | 0, _ => .running
  | fuel + 1, c =>
    match c.step exec code with
    | none => .done c
    | some c => c.run exec code fuel

/-- The instructions on the way from one place and state to another, and the branches taken. -/
inductive Path (exec : ι → σ → σ × Option Nat) (code : List ι) :
    Nat → σ → List ι → List ι → Nat → σ → Prop where
  | nil : Path exec code pc s [] [] pc s
  | next (hi : code[pc]? = some i) (he : exec i s = (s', none))
    (h : Path exec code (pc + 1) s' executed taken pc' s'') :
    Path exec code pc s (i :: executed) taken pc' s''
  | jump (hi : code[pc]? = some i) (he : exec i s = (s', some target))
    (h : Path exec code target s' executed taken pc' s'') :
    Path exec code pc s (i :: executed) (i :: taken) pc' s''

variable {exec : ι → σ → σ × Option Nat} {code : List ι}

theorem Path.trans (h : Path exec code pc s executed taken pc' s')
    (h' : Path exec code pc' s' executed' taken' pc'' s'') :
    Path exec code pc s (executed ++ executed') (taken ++ taken') pc'' s'' := by
  induction h with
  | nil => exact h'
  | next hi he _ ih => exact .next hi he (ih h')
  | jump hi he _ ih => exact .jump hi he (ih h')

theorem Path.run (h : Path exec code pc s executed taken pc' s') (fuel : Nat)
    (before beforeTaken : List ι) :
    (Core.run exec code (executed.length + fuel) ⟨pc, s, before, beforeTaken⟩ : Run ε _) =
      Core.run exec code fuel ⟨pc', s', before ++ executed, beforeTaken ++ taken⟩ := by
  induction h generalizing before beforeTaken with
  | nil => rw [List.length_nil, Nat.zero_add, List.append_nil, List.append_nil]
  | next hi he _ ih =>
    rw [List.length_cons, Nat.add_right_comm, Core.run, Core.step, hi, Option.map_some, he]
    dsimp only
    rw [ih, List.append_assoc]
    rfl
  | jump hi he _ ih =>
    rw [List.length_cons, Nat.add_right_comm, Core.run, Core.step, hi, Option.map_some, he]
    dsimp only
    rw [ih, List.append_assoc, List.append_assoc]
    rfl

theorem Path.run_done (h : Path exec code 0 s executed taken pc s')
    (hout : code.length ≤ pc) (hfuel : executed.length < fuel) :
    (Core.run exec code fuel (.start s) : Run ε _) = .done ⟨pc, s', executed, taken⟩ := by
  obtain ⟨rest, rfl⟩ := Nat.exists_eq_add_of_le hfuel
  rw [Nat.succ_eq_add_one, Nat.add_assoc, Core.start, h.run, Nat.add_comm 1, Core.run, Core.step,
    List.getElem?_eq_none hout]
  rfl

/-- A loop whose trips count down: all of them but the last go back to where it begins. -/
theorem Path.countdown {S : Nat → σ → Prop} {trip back leave : List ι}
    (hback : ∀ n s, S (n + 2) s → ∃ s', S (n + 1) s' ∧ Path exec code pc s trip back pc s')
    (hleave : ∀ s, S 1 s → ∃ s', S 0 s' ∧ Path exec code pc s trip leave pc' s') (n : Nat) :
    ∀ s, S (n + 1) s → ∃ s', S 0 s' ∧ Path exec code pc s (List.replicate (n + 1) trip).flatten
      ((List.replicate n back).flatten ++ leave) pc' s' := by
  induction n with
  | zero =>
    intro s hs
    obtain ⟨s', hs', hpath⟩ := hleave s hs
    refine ⟨s', hs', ?_⟩
    rwa [List.replicate_one, List.flatten_singleton, List.replicate_zero, List.flatten_nil,
      List.nil_append]
  | succ n ih =>
    intro s hs
    obtain ⟨t, ht, hpath⟩ := hback n s hs
    obtain ⟨s', hs', hrest⟩ := ih t ht
    refine ⟨s', hs', ?_⟩
    rw [List.replicate_succ, List.flatten_cons, List.replicate_succ (n := n) (a := back),
      List.flatten_cons, List.append_assoc]
    exact hpath.trans hrest

/-- Forward branches, each over padding to the next; `pads` says how much there is. -/
def forwardBranches (branch : Nat → ι) (padding : ι) : List Nat → Nat → List ι
  | [], _ => []
  | pad :: pads, pc => branch (pc + 1 + pad) :: (List.replicate pad padding ++
      forwardBranches branch padding pads (pc + 1 + pad))

/-- Where the branches lead that start at an address. -/
def forwardTargets : List Nat → Nat → List Nat
  | [], _ => []
  | pad :: pads, pc => (pc + 1 + pad) :: forwardTargets pads (pc + 1 + pad)

theorem forwardTargets_length (pads : List Nat) (pc : Nat) :
    (forwardTargets pads pc).length = pads.length := by
  induction pads generalizing pc with
  | nil => rfl
  | cons pad pads ih => rw [forwardTargets, List.length_cons, List.length_cons, ih]

theorem getElem?_after (before : List ι) (i : ι) (after : List ι) :
    (before ++ i :: after)[before.length]? = some i := by
  rw [List.getElem?_append_right (Nat.le_refl _), Nat.sub_self]
  rfl

/-- Branches that are taken in a state skip the padding between them. -/
theorem Path.forward {branch : Nat → ι} (padding : ι)
    (hbranch : ∀ target, exec (branch target) s = (s, some target)) (pads : List Nat)
    (before after : List ι) :
    let chain := forwardBranches branch padding pads before.length
    let taken := (forwardTargets pads before.length).map branch
    Path exec (before ++ chain ++ after) before.length s taken taken (before ++ chain).length s := by
  induction pads generalizing before with
  | nil =>
    intro chain taken
    rw [show before ++ chain = before from List.append_nil before]
    exact .nil
  | cons pad pads ih =>
    intro chain taken
    let skipped := before ++ branch (before.length + 1 + pad) :: List.replicate pad padding
    have hlength : skipped.length = before.length + 1 + pad := by
      rw [List.length_append, List.length_cons, List.length_replicate]
      omega
    have hsplit : before ++ chain =
        skipped ++ forwardBranches branch padding pads (before.length + 1 + pad) := by
      rw [List.append_assoc]
      rfl
    have hrest := ih skipped
    dsimp only at hrest
    rw [hlength, ← hsplit] at hrest
    refine .jump ?_ (hbranch _) hrest
    rw [List.append_assoc]
    exact getElem?_after before _ _

end Prog

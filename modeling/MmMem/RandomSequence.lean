import MmMem.MemRegion

namespace MmMem
open Prog
set_option autoImplicit true

/-- The first `size` entries are the multiples of the unit, in some order. -/
structure Shuffled (len size unit : Nat) (s : List Nat) : Prop where
  length : s.length = len
  perm : (s.take size).Perm ((List.range size).map (· * unit))

theorem swap_perm {s : List Nat} (hi : i < size) (hk : k < size) (hs : size ≤ s.length)
    (_ : i < s.length) (_ : k < s.length) :
    (((s.set k s[i]).set i s[k]).take size).Perm (s.take size) := by
  have hi' : i < (s.take size).length := by rw [List.length_take]; omega
  have hk' : k < (s.take size).length := by rw [List.length_take]; omega
  have h := List.set_set_perm hk' hi'
  simpa only [List.take_set, List.getElem_take] using h

theorem Shuffled.swap (h : Shuffled len size unit s) (hs : size ≤ len) (hi : i < size)
    (hk : k < size) (hi' : i < s.length) (hk' : k < s.length) :
    Shuffled len size unit ((s.set k s[i]).set i s[k]) where
  length := by rw [List.length_set, List.length_set, h.length]
  perm := (swap_perm hi hk (by rw [h.length]; exact hs) hi' hk').trans h.perm

theorem Shuffled.zero_mem (h : Shuffled len size unit s) (hsize : 0 < size) :
    0 ∈ s.take size := by
  rw [h.perm.mem_iff]
  exact List.mem_map.2 ⟨0, List.mem_range.2 hsize, Nat.zero_mul unit⟩

theorem Shuffled.nodup (h : Shuffled len size unit s) (hu : 0 < unit) : (s.take size).Nodup := by
  rw [h.perm.nodup_iff]
  exact List.nodup_range.map fun a b hab => Nat.eq_of_mul_eq_mul_right hu hab

theorem Shuffled.getElem (h : Shuffled len size unit s) (hi : i < size) (hi' : i < s.length) :
    ∃ j < size, s[i] = j * unit := by
  have hm : s[i] ∈ s.take size := by
    rw [List.mem_take_iff_getElem]
    exact ⟨i, by omega, rfl⟩
  obtain ⟨j, hj, he⟩ := List.mem_map.1 (h.perm.mem_iff.1 hm)
  exact ⟨j, List.mem_range.1 hj, he.symm⟩

theorem fill_safe (unit : Nat) (hs : s.length = len) (hsize : size ≤ len)
    (hu : size * unit < 2 ^ 64) :
    Run.Safe (fun s => s.length = len ∧ s.take size = (List.range size).map (· * unit))
      (Run.loop (fun i s => vectorSet s i (u64 (i * unit))) size 0 s) := by
  have hfill := Run.Safe.loop (ε := Fault)
    (f := fun i s => vectorSet s i (u64 (i * unit))) (i := 0) (n := size) (s := s)
    (I := fun i s => s.length = len ∧ ∀ j < i, s[j]? = some (j * unit))
    ⟨hs, fun j hj => absurd hj (Nat.not_lt_zero j)⟩ (by
      intro i s _ hi ⟨hlen, hfilled⟩
      have hlt : i * unit < 2 ^ 64 :=
        Nat.lt_of_le_of_lt (Nat.mul_le_mul_right unit (by omega)) hu
      rw [vectorSet_eq _ (by omega), Run.safe_done, u64_eq hlt]
      refine ⟨by rw [List.length_set, hlen], fun j hj => ?_⟩
      rcases Nat.lt_succ_iff_lt_or_eq.1 hj with hj | rfl
      · rw [List.getElem?_set_ne (by omega), hfilled j hj]
      · rw [List.getElem?_set_self (by omega)])
  apply hfill.mono
  rintro s ⟨hlen, hfilled⟩
  refine ⟨hlen, List.ext_getElem? fun j => ?_⟩
  rw [Nat.zero_add] at hfilled
  by_cases hj : j < size
  · rw [List.getElem?_take_of_lt hj, hfilled j hj, List.getElem?_map,
      List.getElem?_range hj, Option.map_some]
  · rw [List.getElem?_eq_none (by rw [List.length_take]; omega),
      List.getElem?_eq_none (by rw [List.length_map, List.length_range]; omega)]

theorem swapStep_safe (h : Shuffled len size unit s.sequence) (hsize : size ≤ len)
    (hi : i < size) (hlt : size < 2 ^ 64) :
    Run.Safe (fun s' => Shuffled len size unit s'.sequence) (swapStep rand i s) := by
  have hlen := h.length
  have hu : u64 (i + 1) = i + 1 := u64_eq (by omega)
  have hk : ∀ n, n % (i + 1) < size := fun n => by
    have hmod : n % (i + 1) < i + 1 := Nat.mod_lt n (Nat.succ_pos i)
    omega
  simp only [swapStep, hu, remainder_eq (b := i + 1) (Nat.succ_ne_zero i), Run.done_bind]
  generalize (u64 (s.r <<< 1) ^^^ rand s.calls) = r
  have hkr := hk r
  rw [vectorAt_eq (by omega), Run.done_bind, vectorAt_eq (by omega), Run.done_bind,
    vectorSet_eq _ (by omega), Run.done_bind,
    vectorSet_eq _ (by rw [List.length_set]; omega), Run.done_bind]
  exact .done (h.swap hsize hi (hk r) (by omega) (by omega))

/-- Either no entry has been skipped over, or the 32-bit counter cannot reach the bound. -/
theorem startAtZero_safe (h : Shuffled len size unit s) (hsize : size ≤ len) (hpos : 0 < size)
    (hi : i < 2 ^ 32)
    (hscan : 2 ^ 32 ≤ size ∨ 1 ≤ i ∧ ∀ j, 1 ≤ j → j < i → s[j]? ≠ some 0) :
    Run.Safe (fun s' => Shuffled len size unit s' ∧ s'[0]? = some 0)
      (startAtZero size fuel i s) := by
  have hlen := h.length
  induction fuel generalizing i with
  | zero => exact .running
  | succ fuel ih =>
    rw [startAtZero]
    by_cases hlt : i < size
    · have hlt' : i < s.length := by omega
      rw [if_pos hlt, vectorAt_eq hlt', Run.done_bind]
      by_cases hx : s[i] = 0
      · rw [if_pos hx, vectorAt_eq (by omega), Run.done_bind, vectorSet_eq _ (by omega),
          Run.done_bind, vectorSet_eq _ (by rw [List.length_set]; omega), Run.safe_done]
        have hsw := h.swap hsize hpos hlt (by omega) (by omega)
        rw [hx] at hsw
        exact ⟨hsw, List.getElem?_set_self (by rw [List.length_set]; omega)⟩
      · rw [if_neg hx]
        apply ih (u32_lt _)
        by_cases hbig : 2 ^ 32 ≤ size
        · exact .inl hbig
        · obtain ⟨hi1, hnz⟩ := hscan.resolve_left hbig
          rw [u32_eq (by omega)]
          refine .inr ⟨by omega, fun j hj hji => ?_⟩
          rcases Nat.lt_succ_iff_lt_or_eq.1 hji with hji | rfl
          · exact hnz j hj hji
          · rw [List.getElem?_eq_getElem (by omega)]
            exact fun he => hx (Option.some.inj he)
    · rw [if_neg hlt, Run.safe_done]
      obtain ⟨hi1, hnz⟩ := hscan.resolve_left (by omega)
      refine ⟨h, ?_⟩
      obtain ⟨k, hk, he⟩ := List.mem_take_iff_getElem.1 (h.zero_mem hpos)
      rcases Nat.eq_zero_or_pos k with rfl | hkpos
      · rw [List.getElem?_eq_getElem (by omega), he]
      · refine absurd ?_ (hnz k hkpos (by omega))
        rw [List.getElem?_eq_getElem (by omega), he]

theorem vectorSet_ne_running {v : List α} : vectorSet v i x ≠ .running := by
  rw [vectorSet]
  split
  · exact nofun
  · exact nofun

theorem exists_fill (unit : Nat) (hs : s.length = len) (hsize : size ≤ len)
    (hu : size * unit < 2 ^ 64) :
    ∃ filled, Run.loop (fun i s => vectorSet s i (u64 (i * unit))) size 0 s = .done filled ∧
      filled.length = len ∧ filled.take size = (List.range size).map (· * unit) :=
  (fill_safe unit hs hsize hu).exists_done
    (Run.loop_ne_running (fun _ _ => vectorSet_ne_running) _ _ _)

theorem randomizeSequence_inOrder (hu : size * unit < 2 ^ 64) :
    randomizeSequence rand fuel (List.replicate size 0) size unit true =
      .done ((List.range size).map (· * unit)) := by
  obtain ⟨s, hs, hlen, htake⟩ := exists_fill unit (List.length_replicate (n := size) (a := 0))
    (Nat.le_refl size) hu
  rw [List.take_of_length_le (by omega)] at htake
  rw [randomizeSequence, hs, Run.done_bind, htake]
  rfl

/-- The shuffled sequence is a permutation of the multiples of the unit that starts at zero. -/
theorem randomizeSequence_safe (rand : Nat → Nat) (fuel unit : Nat) (hs : s.length = len)
    (hsize : size ≤ len) (hpos : 0 < size) (hlt : size < 2 ^ 64) (hu : size * unit < 2 ^ 64) :
    Run.Safe (fun s' => Shuffled len size unit s' ∧ s'[0]? = some 0)
      (randomizeSequence rand fuel s size unit false) := by
  rw [randomizeSequence, u64Sub_eq hpos hlt]
  apply (fill_safe unit hs hsize hu).bind
  intro s' ⟨hlen, hfill⟩
  have h : Shuffled len size unit s' := ⟨hlen, .of_eq hfill⟩
  simp only [Bool.false_eq_true, ↓reduceIte]
  have hswap := Run.Safe.loopDown (ε := Fault) (f := swapStep rand) (i := size - 1)
    (s := { sequence := s', r := rand 0 ^^^ u64 (rand 1 <<< 10), calls := 2 })
    (I := fun _ s => Shuffled len size unit s.sequence) h
    (fun j t hj ht => swapStep_safe ht hsize (by omega) hlt)
  apply hswap.bind
  intro t ht
  exact startAtZero_safe ht hsize hpos (by decide)
    (.inr ⟨Nat.le_refl 1, fun j hj hj' => absurd hj' (by omega)⟩)

theorem Shuffled.order (h : Shuffled n n unit s) (hu : 0 < unit) :
    ∃ σ : Nat → Nat, (∀ j < n, σ j < n ∧ s.getD j 0 = σ j * unit) ∧
      (∀ i < n, ∀ j < n, σ i = σ j → i = j) ∧ ∀ k < n, ∃ j < n, σ j = k := by
  have hlen := h.length
  have htake : s.take n = s := List.take_of_length_le (by omega)
  have hget : ∀ j, (hj : j < s.length) → s.getD j 0 = s[j] := fun j hj =>
    List.getD_eq_getElem s 0 hj
  have hσ : ∀ j < n, s.getD j 0 / unit < n ∧ s.getD j 0 = s.getD j 0 / unit * unit := by
    intro j hj
    obtain ⟨k, hk, he⟩ := h.getElem hj (by omega)
    rw [hget j (by omega), he, Nat.mul_div_cancel k hu]
    exact ⟨hk, rfl⟩
  refine ⟨fun j => s.getD j 0 / unit, hσ, fun i hi j hj he => ?_, fun k hk => ?_⟩
  · change s.getD i 0 / unit = s.getD j 0 / unit at he
    have hnd : s.Nodup := htake ▸ h.nodup hu
    have hi' : i < s.length := by omega
    have hj' : j < s.length := by omega
    have hij : s[i] = s[j] := by
      rw [← hget i hi', ← hget j hj', (hσ i hi).2, (hσ j hj).2, he]
    exact (hnd.getElem_inj_iff).1 hij
  · have hm : k * unit ∈ s := by
      rw [← htake, h.perm.mem_iff]
      exact List.mem_map.2 ⟨k, List.mem_range.2 hk, rfl⟩
    obtain ⟨j, hj, he⟩ := List.mem_iff_getElem.1 hm
    refine ⟨j, by omega, ?_⟩
    change s.getD j 0 / unit = k
    rw [hget j hj, he, Nat.mul_div_cancel k hu]

theorem vectorAt_ne_running {v : List α} : vectorAt v i ≠ .running := by
  rw [vectorAt]
  intro h
  split at h
  · cases h
  · cases h

theorem swapStep_ne_running {s : Shuffle} : swapStep rand i s ≠ .running := by
  apply Run.bind_ne_running
  · rw [remainder]
    split
    · exact nofun
    · exact nofun
  · intro k _
    apply Run.bind_ne_running vectorAt_ne_running
    intro tmp _
    apply Run.bind_ne_running vectorAt_ne_running
    intro x _
    apply Run.bind_ne_running vectorSet_ne_running
    intro s' _
    exact Run.bind_ne_running vectorSet_ne_running fun _ _ => nofun

/-- A stream of `rand()` under which no swap moves the first entry. -/
def quietRand (n : Nat) : Nat := if n = 0 then 1 else if n = 1 then 0 else 3

/-- What the quiet stream keeps while it swaps. -/
structure Quiet (len size unit : Nat) (s : Shuffle) : Prop where
  shuffled : Shuffled len size unit s.sequence
  first : s.sequence[0]? = some 0
  r : s.r = 1
  calls : 2 ≤ s.calls

theorem Quiet.swapStep (h : Quiet len size unit s) (hsize : size ≤ len) (hi : i + 1 < size)
    (hlt : size < 2 ^ 64) :
    Run.Safe (Quiet len size unit) (swapStep quietRand (i + 1) s) := by
  have hlen := h.shuffled.length
  have hrand : quietRand s.calls = 3 := by
    have hcalls := h.calls
    rw [quietRand, if_neg (by omega), if_neg (by omega)]
  have hr : (u64 (s.r <<< 1) ^^^ quietRand s.calls) = 1 := by
    rw [h.r, hrand]
    decide
  have hk : 1 % (i + 2) = 1 := Nat.mod_eq_of_lt (by omega)
  have hfirst : ∀ x y : Nat, ((s.sequence.set 1 x).set (i + 1) y)[0]? = some 0 := by
    intro x y
    rw [List.getElem?_set_ne (by omega), List.getElem?_set_ne (by omega), h.first]
  simp only [MmMem.swapStep, hr, u64_eq (show i + 1 + 1 < 2 ^ 64 by omega),
    remainder_eq (b := i + 1 + 1) (Nat.succ_ne_zero _), Run.done_bind, hk]
  rw [vectorAt_eq (by omega), Run.done_bind, vectorAt_eq (by omega), Run.done_bind,
    vectorSet_eq _ (by omega), Run.done_bind,
    vectorSet_eq _ (by rw [List.length_set]; omega), Run.done_bind]
  have hcalls := h.calls
  exact .done ⟨h.shuffled.swap hsize hi (by omega) (by omega) (by omega), hfirst _ _, rfl,
    by simp only; omega⟩

/-- One trip of the last loop ends it, or finds an entry other than zero. -/
theorem startAtZero_succ_ne_running {s : List Nat}
    (h : s[i]? ≠ some 0 → startAtZero size fuel (u32 (i + 1)) s ≠ .running) :
    startAtZero size (fuel + 1) i s ≠ .running := by
  rw [startAtZero]
  split
  · apply Run.bind_ne_running vectorAt_ne_running
    intro x hx
    split
    · apply Run.bind_ne_running vectorAt_ne_running
      intro first _
      exact Run.bind_ne_running vectorSet_ne_running fun _ _ => vectorSet_ne_running
    · next hx0 =>
      apply h
      intro hzero
      rw [vectorAt, hzero] at hx
      exact hx0 (Run.done.inj hx).symm
  · intro h
    cases h

/-- A first entry of zero is found at the latest when the 32-bit counter wraps around. -/
theorem startAtZero_ne_running {s : List Nat} (h0 : s[0]? = some 0) (hi : i < 2 ^ 32)
    (hfuel : 2 ^ 32 - i + 1 ≤ fuel) : startAtZero size fuel i s ≠ .running := by
  induction fuel generalizing i with
  | zero => omega
  | succ fuel ih =>
    apply startAtZero_succ_ne_running
    intro _
    by_cases hwrap : i + 1 < 2 ^ 32
    · rw [u32_eq hwrap]
      exact ih hwrap (by omega)
    · have hzero : u32 (i + 1) = 0 := by
        rw [show i + 1 = 2 ^ 32 by omega]
        rfl
      obtain ⟨fuel, rfl⟩ : ∃ n, fuel = n + 1 := ⟨fuel - 1, by omega⟩
      rw [hzero]
      exact startAtZero_succ_ne_running fun hne => absurd h0 hne

theorem randomizeSequence_quiet (unit : Nat) (hpos : 0 < size) (hlt : size < 2 ^ 64)
    (hu : size * unit < 2 ^ 64) (hfuel : 2 ^ 32 ≤ fuel) :
    randomizeSequence quietRand fuel (List.replicate size 0) size unit
      false ≠ .running := by
  obtain ⟨s, hs, hlen, htake⟩ := exists_fill unit (List.length_replicate (n := size) (a := 0))
    (Nat.le_refl size) hu
  have hseq : s = (List.range size).map (· * unit) := by
    rwa [List.take_of_length_le (by omega)] at htake
  have hfirst : s[0]? = some 0 := by
    rw [hseq, List.getElem?_map, List.getElem?_range hpos, Option.map_some, Nat.zero_mul]
  rw [randomizeSequence, hs, Run.done_bind, u64Sub_eq hpos hlt]
  simp only [Bool.false_eq_true, ↓reduceIte]
  apply Run.bind_ne_running (Run.loopDown_ne_running (fun _ _ => swapStep_ne_running) _ _)
  intro t ht
  have hquiet := (Run.Safe.loopDown (ε := Fault) (f := swapStep quietRand) (i := size - 1)
    (I := fun _ s => Quiet size size unit s)
    (s := { sequence := s, r := quietRand 0 ^^^ u64 (quietRand 1 <<< 10), calls := 2 })
    ⟨⟨hlen, .of_eq htake⟩, hfirst,
      show quietRand 0 ^^^ u64 (quietRand 1 <<< 10) = 1 by decide, Nat.le_refl 2⟩
    (fun j t hj ht => ht.swapStep (Nat.le_refl _) (by omega) hlt)).of_done ht
  exact startAtZero_ne_running hquiet.first (by decide) (by omega)

end MmMem

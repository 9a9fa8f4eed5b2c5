import MmMem.RandomSequence

namespace MmMem
open Prog
set_option autoImplicit true

/-- The word that `rand()` is mixed into, after `n` trips of the swap loop. -/
def mixingWord (rand : Nat → Nat) : Nat → Nat
  | 0 => rand 0 ^^^ u64 (rand 1 <<< 10)
  | n + 1 => u64 (mixingWord rand n <<< 1) ^^^ rand (n + 2)

/-- The entry at index `i` is swapped with the first one. -/
def SwapsFirst (rand : Nat → Nat) (size i : Nat) : Prop :=
  mixingWord rand (size - i) % (i + 1) = 0

/-- The swap loop before its trip at index `i`: the zero has left the front at most once, for the
index of that trip. -/
structure Tracked (rand : Nat → Nat) (len size unit i : Nat) (t : Shuffle) : Prop where
  shuffled : Shuffled len size unit t.sequence
  calls : t.calls = size - 1 - i + 2
  r : t.r = mixingWord rand (size - 1 - i)
  zero : ∃ p < size, t.sequence[p]? = some 0 ∧ (p = 0 ∨ i < p) ∧
    (2 ^ 32 ≤ p ↔ ∃ j, i < j ∧ j < size ∧ 2 ^ 32 ≤ j ∧ SwapsFirst rand size j)

theorem Tracked.swapStep (h : Tracked rand len size unit (i + 1) t) (hsize : size ≤ len)
    (hi : i + 1 < size) (hlt : size < 2 ^ 64) :
    Run.Safe (Tracked rand len size unit i) (swapStep rand (i + 1) t) := by
  have hlen := h.shuffled.length
  have hu : u64 (i + 1 + 1) = i + 1 + 1 := u64_eq (by omega)
  have hword : u64 (t.r <<< 1) ^^^ rand t.calls = mixingWord rand (size - (i + 1)) := by
    obtain ⟨n, hn⟩ : ∃ n, size - (i + 1) = n + 1 := ⟨size - (i + 1) - 1, by omega⟩
    rw [h.r, h.calls, show size - 1 - (i + 1) = n by omega, hn, mixingWord]
  have hfirst : SwapsFirst rand size (i + 1) ↔ mixingWord rand (size - (i + 1)) % (i + 1 + 1) = 0 :=
    Iff.rfl
  simp only [MmMem.swapStep, hword, hu, remainder_eq (b := i + 1 + 1) (Nat.succ_ne_zero _),
    Run.done_bind]
  have hk : mixingWord rand (size - (i + 1)) % (i + 1 + 1) < i + 1 + 1 :=
    Nat.mod_lt _ (Nat.succ_pos _)
  generalize hkdef : mixingWord rand (size - (i + 1)) % (i + 1 + 1) = k at hk hfirst ⊢
  rw [vectorAt_eq (by omega), Run.done_bind, vectorAt_eq (by omega), Run.done_bind,
    vectorSet_eq _ (by omega), Run.done_bind,
    vectorSet_eq _ (by rw [List.length_set]; omega), Run.done_bind]
  refine .done ⟨h.shuffled.swap hsize hi (by omega) (by omega) (by omega), ?_, ?_, ?_⟩
  · have hcalls := h.calls
    simp only
    omega
  · simp only
    congr 1
    omega
  obtain ⟨p, hp, hzero, hplace, hiff⟩ := h.zero
  rcases hplace with rfl | hplace
  · have hnone : ¬ ∃ j, i + 1 < j ∧ j < size ∧ 2 ^ 32 ≤ j ∧ SwapsFirst rand size j := by
      rw [← hiff]
      omega
    by_cases hk0 : k = 0
    · -- the zero goes to where the loop has arrived, and stays there
      subst hk0
      refine ⟨i + 1, hi, ?_, .inr (Nat.lt_succ_self i), fun hbig => ?_, ?_⟩
      · rw [List.getElem?_set_self (by rw [List.length_set]; omega)]
        rw [List.getElem?_eq_getElem (by omega)] at hzero
        exact hzero
      · exact ⟨i + 1, Nat.lt_succ_self i, hi, hbig, hfirst.2 rfl⟩
      · rintro ⟨j, hij, hj, hbig, hswaps⟩
        rcases Nat.lt_or_ge (i + 1) j with hlater | hle
        · exact absurd ⟨j, hlater, hj, hbig, hswaps⟩ hnone
        · omega
    · refine ⟨0, hp, ?_, .inl rfl, fun hbig => ?_, ?_⟩
      · rw [List.getElem?_set_ne (by omega), List.getElem?_set_ne hk0, hzero]
      · omega
      · rintro ⟨j, hij, hj, hbig, hswaps⟩
        rcases Nat.lt_or_ge (i + 1) j with hlater | hle
        · exact absurd ⟨j, hlater, hj, hbig, hswaps⟩ hnone
        · obtain rfl : j = i + 1 := by omega
          exact absurd (hfirst.1 hswaps) hk0
  · refine ⟨p, hp, ?_, .inr (by omega), fun hbig => ?_, ?_⟩
    · rw [List.getElem?_set_ne (by omega), List.getElem?_set_ne (by omega), hzero]
    · obtain ⟨j, hj, h⟩ := hiff.1 hbig
      exact ⟨j, by omega, h⟩
    · rintro ⟨j, hij, hj, hbig, hswaps⟩
      rcases Nat.lt_or_ge (i + 1) j with hlater | hle
      · exact hiff.2 ⟨j, hlater, hj, hbig, hswaps⟩
      · omega

theorem Shuffled.zero_unique (h : Shuffled len size unit s) (hu : 0 < unit) (hi : i < size)
    (hj : j < size) (hzi : s[i]? = some 0) (hzj : s[j]? = some 0) : i = j := by
  have hti : (s.take size)[i]? = some 0 := by rw [List.getElem?_take_of_lt hi, hzi]
  have htj : (s.take size)[j]? = some 0 := by rw [List.getElem?_take_of_lt hj, hzj]
  obtain ⟨hlt, -⟩ := List.getElem?_eq_some_iff.1 hti
  exact (List.getElem?_inj hlt (h.nodup hu)).1 (hti.trans htj.symm)

/-- The 32-bit counter wraps around before it reaches a zero that is too far off. -/
theorem startAtZero_lost {s : List Nat} (hsize : 2 ^ 32 ≤ size) (hlen : size ≤ s.length)
    (hnone : ∀ j < 2 ^ 32, s[j]? ≠ some 0) (hi : i < 2 ^ 32) :
    startAtZero size fuel i s = .running := by
  induction fuel generalizing i with
  | zero => rfl
  | succ fuel ih =>
    have hlt : i < s.length := by omega
    have hx : s[i] ≠ 0 := by
      intro hx
      apply hnone i hi
      rw [List.getElem?_eq_getElem hlt, hx]
    rw [startAtZero, if_pos (by omega), vectorAt_eq hlt, Run.done_bind, if_neg hx]
    exact ih (u32_lt _)

theorem startAtZero_reaches {s : List Nat} (hp : s[p]? = some 0) (hip : i ≤ p)
    (hlt : p < 2 ^ 32) (hfuel : p - i + 1 ≤ fuel) : startAtZero size fuel i s ≠ .running := by
  induction fuel generalizing i with
  | zero => omega
  | succ fuel ih =>
    apply startAtZero_succ_ne_running
    intro hne
    have hip' : i ≠ p := by
      rintro rfl
      exact hne hp
    rw [u32_eq (by omega)]
    exact ih (by omega) (by omega)

section Termination

variable {rand : Nat → Nat} {size unit : Nat} {s : List Nat}

/-- The swap loop leaves the zero beyond the reach of a 32-bit counter just if it swaps it there. -/
theorem swapLoop_zero (rand : Nat → Nat) (hlen : size ≤ s.length) (hpos : 0 < size)
    (hlt : size < 2 ^ 64) (hu : size * unit < 2 ^ 64) :
    ∃ t, (∀ fuel, randomizeSequence rand fuel s size unit false = startAtZero size fuel 1 t) ∧
      Shuffled s.length size unit t ∧
      ∃ p < size, t[p]? = some 0 ∧
        (2 ^ 32 ≤ p ↔ ∃ i, i < size ∧ 2 ^ 32 ≤ i ∧ SwapsFirst rand size i) := by
  obtain ⟨filled, hfilled, hlength, htake⟩ := exists_fill unit rfl hlen hu
  have hstart : Tracked rand s.length size unit (size - 1)
      ⟨filled, rand 0 ^^^ u64 (rand 1 <<< 10), 2⟩ := by
    refine ⟨⟨hlength, .of_eq htake⟩, ?_, ?_, 0, hpos, ?_, .inl rfl, ?_⟩
    · simp only
      omega
    · rw [Nat.sub_self, mixingWord]
    · rw [← List.getElem?_take_of_lt hpos, htake, List.getElem?_map, List.getElem?_range hpos,
        Option.map_some, Nat.zero_mul]
    · constructor
      · omega
      · rintro ⟨j, hj, hj', -⟩
        omega
  obtain ⟨t, ht, htracked⟩ := (Run.Safe.loopDown (ε := Fault) (f := swapStep rand) hstart
    fun j t hj htj => htj.swapStep hlen (by omega) hlt).exists_done
      (Run.loopDown_ne_running (fun _ _ => swapStep_ne_running) _ _)
  obtain ⟨p, hp, hzero, -, hiff⟩ := htracked.zero
  refine ⟨t.sequence, fun fuel => ?_, htracked.shuffled, p, hp, hzero, hiff.trans ?_⟩
  · rw [randomizeSequence, hfilled, Run.done_bind, u64Sub_eq hpos hlt, if_neg Bool.false_ne_true]
    simp only
    rw [ht, Run.done_bind]
  · constructor
    · rintro ⟨j, -, h⟩
      exact ⟨j, h⟩
    · rintro ⟨j, hj, hbig, h⟩
      exact ⟨j, by omega, hj, hbig, h⟩

theorem randomizeSequence_lost (hlen : size ≤ s.length) (hunit : 0 < unit) (hlt : size < 2 ^ 64)
    (hu : size * unit < 2 ^ 64) (hi : i < size) (hbig : 2 ^ 32 ≤ i)
    (hswaps : SwapsFirst rand size i) (fuel : Nat) :
    randomizeSequence rand fuel s size unit false = .running := by
  obtain ⟨t, hrun, hshuffled, p, hp, hzero, hiff⟩ := swapLoop_zero rand hlen (by omega) hlt hu
  have hfar := hiff.2 ⟨i, hi, hbig, hswaps⟩
  rw [hrun]
  apply startAtZero_lost (by omega) (by rw [hshuffled.length]; exact hlen) _ (by decide)
  intro j hj hz
  have hsame := hshuffled.zero_unique hunit (by omega) hp hz hzero
  omega

/-- A zero within reach is found, where it was left at the front after the counter has wrapped. -/
theorem randomizeSequence_found (hlen : size ≤ s.length) (hpos : 0 < size) (hlt : size < 2 ^ 64)
    (hu : size * unit < 2 ^ 64) (hnone : ∀ i < size, 2 ^ 32 ≤ i → ¬ SwapsFirst rand size i) :
    randomizeSequence rand (2 ^ 32 + 1) s size unit false ≠ .running := by
  obtain ⟨t, hrun, -, p, hp, hzero, hiff⟩ := swapLoop_zero rand hlen hpos hlt hu
  have hnear : p < 2 ^ 32 := by
    by_contra hfar
    obtain ⟨i, hi, hbig, hswaps⟩ := hiff.1 (by omega)
    exact hnone i hi hbig hswaps
  rw [hrun]
  rcases Nat.eq_zero_or_pos p with rfl | hpos
  · exact startAtZero_ne_running hzero (by decide) (by omega)
  · exact startAtZero_reaches hzero hpos hnear (by omega)

/-- The shuffle returns the multiples of the unit in an order that starts at zero. -/
def ReturnsShuffled (rand : Nat → Nat) (s : List Nat) (size unit : Nat) (inOrder : Bool) : Prop :=
  ∃ fuel s', randomizeSequence rand fuel s size unit inOrder = .done s' ∧
    Shuffled s.length size unit s' ∧ s'[0]? = some 0

theorem returnsShuffled_inOrder (rand : Nat → Nat) (hlen : size ≤ s.length) (hpos : 0 < size)
    (hu : size * unit < 2 ^ 64) :
    (∀ fuel e, randomizeSequence rand fuel s size unit true ≠ .fault e) ∧
      ReturnsShuffled rand s size unit true := by
  obtain ⟨filled, hfilled, hlength, htake⟩ := exists_fill unit rfl hlen hu
  have hrun : ∀ fuel, randomizeSequence rand fuel s size unit true = .done filled := by
    intro fuel
    rw [randomizeSequence, hfilled, Run.done_bind]
    rfl
  refine ⟨fun fuel e he => ?_, 0, filled, hrun 0, ⟨hlength, .of_eq htake⟩, ?_⟩
  · cases (hrun fuel).symm.trans he
  · rw [← List.getElem?_take_of_lt hpos, htake, List.getElem?_map, List.getElem?_range hpos,
      Option.map_some, Nat.zero_mul]

theorem mixingWord_zero (n : Nat) : mixingWord (fun _ => 0) n = 0 := by
  induction n with
  | zero => rfl
  | succ n ih =>
    rw [mixingWord, ih]
    rfl

theorem swapsFirst_zero (size i : Nat) : SwapsFirst (fun _ => 0) size i := by
  rw [SwapsFirst, mixingWord_zero, Nat.zero_mod]

/-- The shuffle never faults. It returns just if no entry beyond the reach of a 32-bit counter is
swapped with the first one, and so under every stream of `rand()` just if none is that far. -/
theorem randomizeSequence_returns_iff (s : List Nat) (size unit : Nat) (inOrder : Bool)
    (hsize : 1 ≤ size) (hunit : 1 ≤ unit) (hu : size * unit < 2 ^ 64) (hlen : size ≤ s.length) :
    (∀ rand : Nat → Nat,
      (∀ fuel e, randomizeSequence rand fuel s size unit inOrder ≠ .fault e) ∧
      (ReturnsShuffled rand s size unit inOrder ↔
        inOrder = true ∨ ∀ i < size, 2 ^ 32 ≤ i → ¬ SwapsFirst rand size i)) ∧
    ((∀ rand : Nat → Nat, (∀ n, rand n < 2 ^ 31) → ReturnsShuffled rand s size unit inOrder) ↔
      inOrder = true ∨ size ≤ 2 ^ 32) := by
  have hlt : size < 2 ^ 64 := Nat.lt_of_le_of_lt (Nat.le_mul_of_pos_right size hunit) hu
  have hall : ∀ rand : Nat → Nat,
      (∀ fuel e, randomizeSequence rand fuel s size unit inOrder ≠ .fault e) ∧
      (ReturnsShuffled rand s size unit inOrder ↔
        inOrder = true ∨ ∀ i < size, 2 ^ 32 ≤ i → ¬ SwapsFirst rand size i) := by
    intro rand
    cases inOrder with
    | true =>
      obtain ⟨hfaults, hreturns⟩ := returnsShuffled_inOrder rand hlen hsize hu
      exact ⟨hfaults, ⟨fun _ => .inl rfl, fun _ => hreturns⟩⟩
    | false =>
      have hsafe := fun fuel => randomizeSequence_safe rand fuel unit rfl hlen hsize hlt hu
      refine ⟨fun fuel e => (hsafe fuel).not_fault, ?_, ?_⟩
      · rintro ⟨fuel, s', hdone, -⟩
        refine .inr fun i hi hbig hswaps => ?_
        cases (randomizeSequence_lost hlen hunit hlt hu hi hbig hswaps fuel).symm.trans hdone
      · intro hnone
        have hfound := randomizeSequence_found hlen hsize hlt hu
          (hnone.resolve_left Bool.false_ne_true)
        exact ⟨_, (hsafe _).exists_done hfound⟩
  refine ⟨hall, fun h => ?_, fun h rand _ => (hall rand).2.2 ?_⟩
  · refine ((hall fun _ => 0).2.1 (h (fun _ => 0) fun _ => by decide)).imp_right fun hnone => ?_
    by_contra hbig
    exact hnone (size - 1) (by omega) (by omega) (swapsFirst_zero size _)
  · exact h.imp_right fun hle i hi hbig => absurd hbig (by omega)

theorem randomizeSequence_returns_iff_small :
    ReturnsShuffled (fun _ => 0) [7, 7, 7] 3 64 false :=
  (randomizeSequence_returns_iff [7, 7, 7] 3 64 false (by decide) (by decide) (by decide)
    (by decide)).2.2 (.inr (by decide)) (fun _ => 0) fun _ => by decide

/-- With one entry too many, zeros from `rand()` leave the zero behind the last index of the
counter. -/
theorem randomizeSequence_endless :
    ¬ ReturnsShuffled (fun _ => 0) (List.replicate (2 ^ 32 + 1) 0) (2 ^ 32 + 1) 1 false := by
  rintro ⟨fuel, s', hdone, -⟩
  have hlen : 2 ^ 32 + 1 ≤ (List.replicate (2 ^ 32 + 1) 0 : List Nat).length :=
    Nat.le_of_eq List.length_replicate.symm
  have hlost := randomizeSequence_lost hlen Nat.one_pos (by decide) (by decide)
    (Nat.lt_succ_self (2 ^ 32)) (Nat.le_refl _) (swapsFirst_zero _ _) fuel
  cases hlost.symm.trans hdone

end Termination

end MmMem

import Mathlib.Data.Int.GCD
import Mathlib.Data.Nat.Find

namespace Prog
set_option autoImplicit true

/-- A count and the mark it is compared with, both modulo `M`. -/
structure Tally where
  count : Nat
  mark : Nat
  deriving Repr, DecidableEq

/-- The next count is past the mark. -/
def Tally.Passes (M unit : Nat) (t : Tally) : Prop := t.mark < (t.count + unit) % M

instance (M unit : Nat) (t : Tally) : Decidable (t.Passes M unit) :=
  inferInstanceAs (Decidable (_ < _))

/-- The count grows by a unit, and the mark by a period each time it is passed. -/
def Tally.advance (M unit period : Nat) (t : Tally) : Tally where
  count := (t.count + unit) % M
  mark := if t.Passes M unit then (t.mark + period) % M else t.mark

def Tally.after (M unit period : Nat) : Nat → Tally
  | 0 => ⟨0, period⟩
  | n + 1 => (after M unit period n).advance M unit period

variable {M unit period : Nat}

theorem Tally.after_count (n : Nat) : (after M unit period n).count = n * unit % M := by
  induction n with
  | zero => rw [Nat.zero_mul, Nat.zero_mod]; rfl
  | succ n ih => rw [after, advance, ih, Nat.mod_add_mod, Nat.succ_mul]

/-- The mark is passed at step `n`, which makes the count `n + 1` units. -/
def Tally.PassesAt (M unit period n : Nat) : Prop :=
  (after M unit period n).mark < (n + 1) * unit % M

theorem Tally.passes_after (n : Nat) :
    (after M unit period n).Passes M unit ↔ PassesAt M unit period n := by
  rw [Passes, PassesAt, after_count, Nat.mod_add_mod, Nat.succ_mul]

instance (M unit period n : Nat) : Decidable (Tally.PassesAt M unit period n) :=
  inferInstanceAs (Decidable (_ < _))

theorem Tally.mark_passed (h : PassesAt M unit period n) :
    (after M unit period (n + 1)).mark = ((after M unit period n).mark + period) % M := by
  rw [after, advance]
  exact if_pos ((passes_after n).2 h)

theorem Tally.mark_kept (h : ¬ PassesAt M unit period n) :
    (after M unit period (n + 1)).mark = (after M unit period n).mark := by
  rw [after, advance]
  exact if_neg fun hp => h ((passes_after n).1 hp)

/-- How often the mark has been set before step `n`. -/
def Tally.marks (M unit period : Nat) : Nat → Nat
  | 0 => 1
  | n + 1 => if PassesAt M unit period n then marks M unit period n + 1 else marks M unit period n

theorem Tally.mark_eq (hp : period < M) (n : Nat) :
    (after M unit period n).mark = marks M unit period n * period % M := by
  induction n with
  | zero => rw [after, marks, Nat.one_mul, Nat.mod_eq_of_lt hp]
  | succ n ih =>
    by_cases h : PassesAt M unit period n
    · rw [mark_passed h, ih, Nat.mod_add_mod, marks, if_pos h, Nat.succ_mul]
    · rw [mark_kept h, ih, marks, if_neg h]

theorem Tally.exists_marks (h : ∀ m, ∃ n ≥ m, PassesAt M unit period n) (k : Nat) (hk : 1 ≤ k) :
    ∃ n, marks M unit period n = k := by
  induction k with
  | zero => omega
  | succ k ih =>
    rcases Nat.eq_zero_or_pos k with rfl | hpos
    · exact ⟨0, rfl⟩
    · obtain ⟨m, hm⟩ := ih hpos
      -- the first pass from step `m` on sets mark `k + 1`
      have hex := h m
      classical
      obtain ⟨hge, hpass⟩ := Nat.find_spec hex
      have hkept : ∀ j, m + j ≤ Nat.find hex → marks M unit period (m + j) = k := by
        intro j hj
        induction j with
        | zero => exact hm
        | succ j ihj =>
          have hnot : ¬ PassesAt M unit period (m + j) := fun hp =>
            Nat.find_min hex (m := m + j) (by omega) ⟨Nat.le_add_right m j, hp⟩
          rw [← Nat.add_assoc, marks, if_neg hnot, ihj (by omega)]
      have hfind := hkept (Nat.find hex - m) (by omega)
      rw [Nat.add_sub_cancel' hge] at hfind
      exact ⟨Nat.find hex + 1, by rw [marks, if_pos hpass, hfind]⟩

theorem le_sub_of_dvd {g a b : Nat} (ha : g ∣ a) (hb : g ∣ b) (h : a < b) : a ≤ b - g := by
  have hle := Nat.le_of_dvd (by omega) (Nat.dvd_sub hb ha)
  omega

/-- A mark within a unit of the modulus is never passed again. -/
theorem Tally.stuck (hd : unit ∣ M) (hM : 0 < M)
    (h : M - unit ≤ (after M unit period n).mark) (j : Nat) :
    (after M unit period (n + j)).mark = (after M unit period n).mark ∧
      ¬ PassesAt M unit period (n + j) := by
  have hnot : ∀ i, (after M unit period i).mark = (after M unit period n).mark →
      ¬ PassesAt M unit period i := by
    intro i hi hp
    rw [PassesAt, hi] at hp
    have hmul : unit ∣ (i + 1) * unit % M := (Nat.dvd_mod_iff hd).2 (Nat.dvd_mul_left _ _)
    have hle := le_sub_of_dvd hmul hd (Nat.mod_lt _ hM)
    omega
  induction j with
  | zero => exact ⟨rfl, hnot n rfl⟩
  | succ j ih =>
    have hmark : (after M unit period (n + (j + 1))).mark = (after M unit period n).mark := by
      rw [← Nat.add_assoc, mark_kept ih.2, ih.1]
    exact ⟨hmark, hnot _ hmark⟩

/-- The marks reach `M - gcd period M` if they are passed for ever. -/
theorem Tally.exists_last_mark (hp : period < M) (hg : Nat.gcd period M < M)
    (h : ∀ m, ∃ n ≥ m, PassesAt M unit period n) :
    ∃ n, (after M unit period n).mark = M - Nat.gcd period M := by
  have hM : 0 < M := by omega
  have hgpos : 0 < Nat.gcd period M := Nat.gcd_pos_of_pos_right _ hM
  obtain ⟨c, -, hc⟩ := Nat.exists_mul_mod_eq_gcd hg
  obtain ⟨q, hq⟩ := Nat.gcd_dvd_right period M
  have hprod : c * (q - 1) * period % M = M - Nat.gcd period M := by
    have hlast : (q - 1) * Nat.gcd period M = M - Nat.gcd period M := by
      rw [Nat.sub_mul, Nat.one_mul, Nat.mul_comm q, ← hq]
    calc c * (q - 1) * period % M = (q - 1) * (period * c) % M := by
          rw [Nat.mul_comm c, Nat.mul_assoc, Nat.mul_comm c]
      _ = (q - 1) * Nat.gcd period M % M := by rw [← Nat.mul_mod_mod, hc]
      _ = M - Nat.gcd period M := by rw [hlast, Nat.mod_eq_of_lt (by omega)]
  have hpos : 1 ≤ c * (q - 1) := by
    rcases Nat.eq_zero_or_pos (c * (q - 1)) with hz | hpos
    · rw [hz, Nat.zero_mul, Nat.zero_mod] at hprod
      omega
    · exact hpos
  obtain ⟨n, hn⟩ := exists_marks h _ hpos
  exact ⟨n, by rw [mark_eq hp, hn, hprod]⟩

/-- The mark is passed for ever exactly if the marks leave room for a unit below the modulus. -/
theorem Tally.passes_forever (hd : unit ∣ M) (hu : 0 < unit) (hlt : unit < M) (hp : period < M) :
    (∀ m, ∃ n ≥ m, PassesAt M unit period n) ↔ unit < Nat.gcd period M := by
  constructor
  · intro h
    by_contra hle
    have hg : Nat.gcd period M < M := by omega
    obtain ⟨n, hn⟩ := exists_last_mark hp hg h
    obtain ⟨i, hi, hpass⟩ := h n
    obtain ⟨j, rfl⟩ := Nat.exists_eq_add_of_le hi
    exact (stuck hd (by omega) (by omega) j).2 hpass
  · intro hg m
    obtain ⟨q, hq⟩ := hd
    have hq2 : 2 ≤ q := by
      by_contra hlt2
      have hle : unit * q ≤ unit * 1 := Nat.mul_le_mul_left unit (by omega)
      omega
    -- the step whose count is the largest multiple of the unit below the modulus
    have hsteps : 2 * (m + 1) ≤ q * (m + 1) := Nat.mul_le_mul_right _ hq2
    refine ⟨q * (m + 1) - 2, by omega, ?_⟩
    have hcount : (q * (m + 1) - 2 + 1) * unit % M = M - unit := by
      have hsucc : q * (m + 1) - 2 + 1 = q * (m + 1) - 1 := by omega
      have hmul : q * (m + 1) * unit = M * m + M := by
        rw [hq, Nat.mul_right_comm, Nat.mul_comm q, Nat.mul_succ]
      rw [hsucc, Nat.sub_mul, Nat.one_mul, hmul, Nat.add_sub_assoc (by omega),
        Nat.mul_add_mod, Nat.mod_eq_of_lt (by omega)]
    have hgM : Nat.gcd period M ∣ M := Nat.gcd_dvd_right _ _
    have hmark : Nat.gcd period M ∣ (after M unit period (q * (m + 1) - 2)).mark := by
      rw [mark_eq hp, Nat.dvd_mod_iff hgM]
      exact Dvd.dvd.mul_left (Nat.gcd_dvd_left _ _) _
    have hbound : (after M unit period (q * (m + 1) - 2)).mark < M := by
      rw [mark_eq hp]
      exact Nat.mod_lt _ (by omega)
    have hle := le_sub_of_dvd hmark hgM hbound
    rw [PassesAt, hcount]
    omega

theorem Tally.mark_le (hn : n * unit + period < M) :
    (after M unit period n).mark ≤ n * unit + period := by
  induction n with
  | zero => exact Nat.le_add_left _ _
  | succ n ih =>
    rw [Nat.succ_mul] at hn
    by_cases h : PassesAt M unit period n
    · rw [mark_passed h, Nat.succ_mul]
      rw [PassesAt, Nat.succ_mul, Nat.mod_eq_of_lt (by omega)] at h
      exact Nat.le_trans (Nat.mod_le _ _) (by omega)
    · rw [mark_kept h, Nat.succ_mul]
      exact Nat.le_trans (ih (by omega)) (by omega)

theorem Tally.exists_passes (hu : 0 < unit) (hn : (n + 2) * unit + period < M) :
    ∃ m ≥ n, PassesAt M unit period m := by
  by_contra hno
  have hnot : ∀ m ≥ n, ¬ PassesAt M unit period m := fun m hm hp => hno ⟨m, hm, hp⟩
  have hkept : ∀ j, (after M unit period (n + j)).mark = (after M unit period n).mark := by
    intro j
    induction j with
    | zero => rfl
    | succ j ih => rw [← Nat.add_assoc, mark_kept (hnot (n + j) (Nat.le_add_right n j)), ih]
  rw [Nat.add_mul] at hn
  have hle : (after M unit period n).mark ≤ n * unit + period := mark_le (by omega)
  apply hnot (n + period / unit) (Nat.le_add_right _ _)
  have hdiv : period < (period / unit + 1) * unit := by
    rw [Nat.mul_comm]
    exact Nat.lt_mul_div_succ period hu
  have hfloor : period / unit * unit ≤ period := Nat.div_mul_le_self _ _
  have hcount : (n + period / unit + 1) * unit = n * unit + (period / unit + 1) * unit := by
    rw [Nat.add_assoc, Nat.add_mul]
  rw [PassesAt, hkept, hcount]
  rw [Nat.succ_mul] at hdiv ⊢
  rw [Nat.mod_eq_of_lt (by omega)]
  omega

end Prog

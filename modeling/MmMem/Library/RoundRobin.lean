import Mathlib.Data.Int.CardIntervalMod
import Mathlib.Data.List.Nodup

namespace Prog
set_option autoImplicit true

/-- What the first `n` of some workers are assigned that go through a list over and over. -/
def roundRobin (xs : List α) (n : Nat) : List (Option α) :=
  (List.range n).map fun i => xs[i % xs.length]?

theorem countP_range (p : Nat → Prop) [DecidablePred p] (n : Nat) :
    (List.range n).countP (fun i => decide (p i)) = Nat.count p n := by
  induction n with
  | zero => rfl
  | succ n ih =>
    rw [List.range_succ, List.countP_append, List.countP_singleton, Nat.count_succ, ih]
    simp only [decide_eq_true_eq]

variable {xs : List α}

/-- Of a list without duplicates, each element is assigned once for each whole turn, and once more
if the last turn gets to it. -/
theorem roundRobin_count [DecidableEq α] (hxs : xs.Nodup) (hk : k < xs.length) (n : Nat) :
    (roundRobin xs n).count (some xs[k]) =
      n / xs.length + if k < n % xs.length then 1 else 0 := by
  have hpos := Nat.zero_lt_of_lt hk
  have hturn : ∀ i, xs[i % xs.length]? = some xs[k] ↔ i ≡ k [MOD xs.length] := by
    intro i
    rw [List.getElem?_eq_getElem (Nat.mod_lt i hpos), Option.some.injEq, hxs.getElem_inj_iff,
      Nat.ModEq, Nat.mod_eq_of_lt hk]
  have hcount := Nat.count_modEq_card n hpos k
  rw [Nat.mod_eq_of_lt hk] at hcount
  rw [roundRobin, List.count, List.countP_map, ← hcount, ← countP_range]
  apply List.countP_congr
  intro i _
  simp only [Function.comp_apply, beq_iff_eq, decide_eq_true_eq]
  exact hturn i

theorem roundRobin_balanced [DecidableEq α] (hxs : xs.Nodup) (ha : a ∈ xs) (hb : b ∈ xs) (n : Nat) :
    (roundRobin xs n).count (some a) ≤ (roundRobin xs n).count (some b) + 1 := by
  obtain ⟨j, hj, rfl⟩ := List.mem_iff_getElem.1 ha
  obtain ⟨k, hk, rfl⟩ := List.mem_iff_getElem.1 hb
  rw [roundRobin_count hxs hj, roundRobin_count hxs hk]
  split <;> split <;> omega

theorem roundRobin_nodup (hxs : xs.Nodup) (hn : n ≤ xs.length) : (roundRobin xs n).Nodup := by
  apply List.Nodup.map_on _ List.nodup_range
  intro i hi j hj he
  have hi := Nat.lt_of_lt_of_le (List.mem_range.1 hi) hn
  have hj := Nat.lt_of_lt_of_le (List.mem_range.1 hj) hn
  rw [Nat.mod_eq_of_lt hi, Nat.mod_eq_of_lt hj, List.getElem?_eq_getElem hi,
    List.getElem?_eq_getElem hj, Option.some.injEq] at he
  exact (hxs.getElem_inj_iff).1 he

end Prog

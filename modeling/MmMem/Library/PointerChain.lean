import Mathlib.Data.List.Nodup
import Mathlib.Data.Nat.Periodic

namespace Prog
set_option autoImplicit true

/-- Memory as the 8-byte pointers that can be read from it, with the offsets stored to. -/
structure Memory where
  slot : Nat → Option Nat
  stores : List Nat

def Memory.zeroed : Memory := ⟨fun _ => none, []⟩

/-- A store destroys the pointers it overlaps without starting at the same offset. -/
def Memory.store (m : Memory) (o v : Nat) : Memory where
  slot a := if a = o then some v else if a < o + 8 ∧ o < a + 8 then none else m.slot a
  stores := o :: m.stores

/-- Byte `b` belongs to an 8-byte store. -/
def Memory.Written (m : Memory) (b : Nat) : Prop := ∃ o ∈ m.stores, o ≤ b ∧ b < o + 8

def Apart (a b : Nat) : Prop := a + 8 ≤ b ∨ b + 8 ≤ a

theorem Apart.of_mul (hd : 8 ≤ d) (hab : a ≠ b) : Apart (a * d) (b * d) := by
  rcases Nat.lt_or_gt_of_ne hab with h | h
  · have hm : (a + 1) * d ≤ b * d := Nat.mul_le_mul_right d h
    rw [Nat.succ_mul] at hm
    exact .inl (by omega)
  · have hm : (b + 1) * d ≤ a * d := Nat.mul_le_mul_right d h
    rw [Nat.succ_mul] at hm
    exact .inr (by omega)

@[simp] theorem Memory.store_slot_self (m : Memory) (o v : Nat) :
    (m.store o v).slot o = some v := by
  simp only [Memory.store, ↓reduceIte]

theorem Memory.store_slot_apart (m : Memory) (v : Nat) (h : Apart a o) :
    (m.store o v).slot a = m.slot a := by
  have hne : a ≠ o := by rintro rfl; rcases h with h | h <;> omega
  have hov : ¬ (a < o + 8 ∧ o < a + 8) := by rcases h with h | h <;> omega
  simp only [Memory.store, if_neg hne, if_neg hov]

theorem Memory.store_slot_overlap (m : Memory) (v : Nat) (hne : a ≠ o) (h : ¬ Apart a o) :
    (m.store o v).slot a = none := by
  have hov : a < o + 8 ∧ o < a + 8 := by
    simp only [Apart, not_or, Nat.not_le] at h
    exact ⟨h.2, h.1⟩
  simp only [Memory.store, if_neg hne, if_pos hov]

/-- A destroyed pointer comes back only by a store at its own offset. -/
theorem Memory.store_slot_none (m : Memory) (v : Nat) (hne : a ≠ o) (h : m.slot a = none) :
    (m.store o v).slot a = none := by
  by_cases hap : Apart a o
  · rw [Memory.store_slot_apart m v hap, h]
  · exact Memory.store_slot_overlap m v hne hap

/-- Zeroed memory after the first `k` stops of a tour have each been linked to the next. -/
def Memory.tour (visit : Nat → Nat) : Nat → Memory
  | 0 => .zeroed
  | k + 1 => (Memory.tour visit k).store (visit k) (visit (k + 1))

/-- A later stop that overlaps the first one destroys its pointer. -/
theorem Memory.tour_slot_destroyed {visit : Nat → Nat}
    (hne : ∀ t, 0 < t → t < n → visit 0 ≠ visit t)
    (hj : 0 < j) (hjn : j < n) (hov : ¬ Apart (visit 0) (visit j)) :
    (Memory.tour visit n).slot (visit 0) = none := by
  induction n with
  | zero => omega
  | succ n ih =>
    have hlast : visit 0 ≠ visit n := hne n (by omega) (Nat.lt_succ_self n)
    rcases Nat.lt_succ_iff_lt_or_eq.1 hjn with hlt | rfl
    · exact Memory.store_slot_none _ _ hlast (ih (fun t ht htn => hne t ht (by omega)) hlt)
    · exact Memory.store_slot_overlap _ _ hlast hov

/-- The offset reached from a starting offset after some steps along the stored pointers. -/
def Memory.follow (m : Memory) (start : Nat) : Nat → Option Nat
  | 0 => some start
  | n + 1 => (m.follow start n).bind m.slot

/-- The first `k` stops of a tour are linked each to the next, and nothing else was stored. -/
structure Linked (visit : Nat → Nat) (k : Nat) (m : Memory) : Prop where
  slot : ∀ t < k, m.slot (visit t) = some (visit (t + 1))
  stores : ∀ o ∈ m.stores, ∃ t < k, o = visit t

theorem Linked.zeroed (visit : Nat → Nat) : Linked visit 0 .zeroed :=
  ⟨fun _ h => absurd h (Nat.not_lt_zero _), fun _ h => absurd h List.not_mem_nil⟩

theorem Linked.store {visit : Nat → Nat} (h : Linked visit k m)
    (hapart : ∀ t < k, Apart (visit t) (visit k)) :
    Linked visit (k + 1) (m.store (visit k) (visit (k + 1))) where
  slot t ht := by
    rcases Nat.lt_succ_iff_lt_or_eq.1 ht with hlt | rfl
    · rw [Memory.store_slot_apart m _ (hapart t hlt)]
      exact h.slot t hlt
    · exact Memory.store_slot_self m _ _
  stores o ho := by
    rcases List.mem_cons.1 ho with rfl | ho
    · exact ⟨k, Nat.lt_succ_self k, rfl⟩
    · obtain ⟨t, ht, rfl⟩ := h.stores o ho
      exact ⟨t, Nat.lt_succ_of_lt ht, rfl⟩

/-- A tour whose stops lie apart from each other links them all. -/
theorem Linked.tour {visit : Nat → Nat}
    (hapart : ∀ t < n, ∀ k < n, t ≠ k → Apart (visit t) (visit k)) :
    Linked visit n (Memory.tour visit n) := by
  induction n with
  | zero => exact .zeroed visit
  | succ n ih =>
    apply Linked.store (ih fun t ht k hk => hapart t (by omega) k (by omega))
    intro t ht
    exact hapart t (by omega) n (Nat.lt_succ_self n) (by omega)

theorem Linked.slot_all {visit : Nat → Nat} (h : Linked visit n m) (hn : 0 < n)
    (hper : Function.Periodic visit n) (t : Nat) : m.slot (visit t) = some (visit (t + 1)) := by
  rw [← hper.map_mod_nat t, h.slot (t % n) (Nat.mod_lt t hn), ← hper.map_mod_nat (t + 1),
    ← hper.map_mod_nat (t % n + 1), Nat.mod_add_mod]

theorem Linked.follow {visit : Nat → Nat} (h : Linked visit n m) (hn : 0 < n)
    (hper : Function.Periodic visit n) (t : Nat) : m.follow (visit 0) t = some (visit t) := by
  induction t with
  | zero => rfl
  | succ t ih => rw [Memory.follow, ih, Option.bind_some, h.slot_all hn hper t]

/-- The offsets a chase from a starting offset comes by. -/
def Memory.Reachable (m : Memory) (start o : Nat) : Prop := ∃ t, m.follow start t = some o

/-- Memory that holds a closed tour of `n` stops, each linked to the next. -/
structure Cycle (m : Memory) (visit : Nat → Nat) (n : Nat) : Prop where
  pos : 0 < n
  periodic : Function.Periodic visit n
  apart : ∀ i < n, ∀ j < n, i ≠ j → Apart (visit i) (visit j)
  linked : Linked visit n m

variable {m : Memory} {visit : Nat → Nat} {n : Nat}

theorem Cycle.tour (hn : 0 < n) (hper : Function.Periodic visit n)
    (hapart : ∀ i < n, ∀ j < n, i ≠ j → Apart (visit i) (visit j)) :
    Cycle (Memory.tour visit n) visit n := ⟨hn, hper, hapart, .tour hapart⟩

theorem Cycle.slot (h : Cycle m visit n) (t : Nat) : m.slot (visit t) = some (visit (t + 1)) :=
  h.linked.slot_all h.pos h.periodic t

theorem Cycle.follow (h : Cycle m visit n) (t : Nat) : m.follow (visit 0) t = some (visit t) :=
  h.linked.follow h.pos h.periodic t

theorem Cycle.inj (h : Cycle m visit n) (hi : i < n) (hj : j < n) (he : visit i = visit j) :
    i = j := by
  by_contra hne
  rcases h.apart i hi j hj hne with hap | hap <;> omega

theorem Cycle.closes (h : Cycle m visit n) : visit n = visit 0 := by
  have hper := h.periodic 0
  rwa [Nat.zero_add] at hper

theorem Cycle.reachable_iff (h : Cycle m visit n) (o : Nat) :
    m.Reachable (visit 0) o ↔ ∃ t < n, visit t = o := by
  constructor
  · rintro ⟨t, ht⟩
    rw [h.follow t] at ht
    exact ⟨t % n, Nat.mod_lt t h.pos, (h.periodic.map_mod_nat t).trans (Option.some.inj ht)⟩
  · rintro ⟨t, -, rfl⟩
    exact ⟨t, h.follow t⟩

/-- The stops of a chase are all different exactly up to one turn. -/
theorem Cycle.nodup_iff (h : Cycle m visit n) (k : Nat) :
    ((List.range k).map visit).Nodup ↔ k ≤ n := by
  constructor
  · intro hnodup
    by_contra hlt
    rw [Nat.not_le] at hlt
    have hinj := List.inj_on_of_nodup_map hnodup (List.mem_range.2 hlt)
      (List.mem_range.2 (Nat.zero_lt_of_lt hlt)) h.closes
    exact Nat.ne_of_gt h.pos hinj
  · intro hle
    apply List.Nodup.map_on _ List.nodup_range
    intro i hi j hj he
    exact h.inj (Nat.lt_of_lt_of_le (List.mem_range.1 hi) hle)
      (Nat.lt_of_lt_of_le (List.mem_range.1 hj) hle) he

end Prog

import MmMem.Library.BoundedRun
import Mathlib.Data.List.Basic

namespace Prog
set_option autoImplicit true

/-- The elements met along the links from `a`, the `k`-th after `k` steps. -/
def chain (next : α → Option α) (a : α) : Nat → Option α
  | 0 => some a
  | k + 1 => (chain next a k).bind next

/-- Follows the links from `a` until there is none, or it leads to an element already seen. -/
def walk [DecidableEq α] (next : α → Option α) : Nat → α → List α → Run ε (List α)
  | 0, _, _ => .running
  | fuel + 1, a, seen =>
    if a ∈ seen then .done seen
    else
      match next a with
      | none => .done (a :: seen)
      | some b => walk next fuel b (a :: seen)

theorem chain_succ {next : α → Option α} (ha : chain next a k = some b) :
    chain next a (k + 1) = next b := by
  rw [chain, ha, Option.bind_some]

theorem chain_isSome_of_le {next : α → Option α} (h : (chain next a k).isSome) (hj : j ≤ k) :
    (chain next a j).isSome := by
  induction k with
  | zero => rwa [Nat.le_zero.1 hj]
  | succ k ih =>
    rcases Nat.le_succ_iff.1 hj with hj | rfl
    · apply ih _ hj
      rw [chain] at h
      exact Option.isSome_of_isSome_bind h
    · exact h

section Walk

variable [DecidableEq α] {next : α → Option α} {out seen : List α}

/-- The walk from `a`: what has been seen stays, links of what is seen lead to what is seen, and
nothing is seen but what is met along the links. -/
theorem walk_spec (h : (walk next fuel a seen : Run ε (List α)) = .done out)
    (hseen : ∀ s ∈ seen, ∀ b, next s = some b → b ∈ seen ∨ b = a) :
    a ∈ out ∧ (∀ s ∈ seen, s ∈ out) ∧ (∀ s ∈ out, ∀ b, next s = some b → b ∈ out) ∧
      ∀ s ∈ out, s ∈ seen ∨ ∃ k, chain next a k = some s := by
  induction fuel generalizing a seen with
  | zero => cases h
  | succ fuel ih =>
    rw [walk] at h
    by_cases ha : a ∈ seen
    · rw [if_pos ha] at h
      cases h
      refine ⟨ha, fun s hs => hs, fun s hs b hb => ?_, fun s hs => .inl hs⟩
      rcases hseen s hs b hb with hb | rfl
      · exact hb
      · exact ha
    rw [if_neg ha] at h
    cases hnext : next a with
    | none =>
      rw [hnext] at h
      cases h
      refine ⟨List.mem_cons_self, fun s hs => List.mem_cons_of_mem a hs, fun s hs b hb => ?_,
        fun s hs => ?_⟩
      · rcases List.mem_cons.1 hs with rfl | hs
        · cases hnext.symm.trans hb
        · rcases hseen s hs b hb with hb | rfl
          · exact List.mem_cons_of_mem a hb
          · exact List.mem_cons_self
      · rcases List.mem_cons.1 hs with rfl | hs
        · exact .inr ⟨0, rfl⟩
        · exact .inl hs
    | some b =>
      rw [hnext] at h
      obtain ⟨hb, hkept, hclosed, hmet⟩ := ih h (by
        intro s hs c hc
        rcases List.mem_cons.1 hs with rfl | hs
        · exact .inr (Option.some.inj (hc.symm.trans hnext))
        · rcases hseen s hs c hc with hc | rfl
          · exact .inl (List.mem_cons_of_mem a hc)
          · exact .inl List.mem_cons_self)
      refine ⟨hkept a List.mem_cons_self, fun s hs => hkept s (List.mem_cons_of_mem a hs), hclosed,
        fun s hs => ?_⟩
      rcases hmet s hs with hs | ⟨k, hk⟩
      · rcases List.mem_cons.1 hs with rfl | hs
        · exact .inr ⟨0, rfl⟩
        · exact .inl hs
      · refine .inr ⟨k + 1, ?_⟩
        have hshift : ∀ k, chain next a (k + 1) = chain next b k := by
          intro k
          induction k with
          | zero => exact hnext
          | succ k ihk => rw [chain, ihk, chain]
        rw [hshift, hk]

theorem mem_walk (h : (walk next fuel a [] : Run ε (List α)) = .done out) :
    b ∈ out ↔ ∃ k, chain next a k = some b := by
  obtain ⟨ha, -, hclosed, hmet⟩ := walk_spec h fun s hs => absurd hs List.not_mem_nil
  constructor
  · intro hb
    exact (hmet b hb).resolve_left List.not_mem_nil
  · rintro ⟨k, hk⟩
    induction k generalizing b with
    | zero =>
      cases hk
      exact ha
    | succ k ih =>
      obtain ⟨c, hc, hb⟩ := Option.bind_eq_some_iff.1 hk
      exact hclosed c (ih hc) b hb

theorem walk_mono (h : (walk next fuel a seen : Run ε (List α)) = .done out) (hf : fuel ≤ fuel') :
    (walk next fuel' a seen : Run ε (List α)) = .done out := by
  induction fuel generalizing fuel' a seen with
  | zero => cases h
  | succ fuel ih =>
    obtain ⟨fuel', rfl⟩ : ∃ n, fuel' = n + 1 := ⟨fuel' - 1, by omega⟩
    rw [walk] at h ⊢
    by_cases ha : a ∈ seen
    · rw [if_pos ha] at h ⊢
      exact h
    · rw [if_neg ha] at h ⊢
      cases hnext : next a with
      | none =>
        rw [hnext] at h
        exact h
      | some b =>
        rw [hnext] at h
        exact ih h (Nat.le_of_succ_le_succ hf)

/-- Links that start only inside a finite list come to an end, or lead back. -/
theorem exists_walk (dom : List α) (hdom : ∀ a b, next a = some b → a ∈ dom)
    (hfuel : (dom.filter (· ∉ seen)).length + 2 ≤ fuel) :
    ∃ out, (walk next fuel a seen : Run ε (List α)) = .done out := by
  induction fuel generalizing a seen with
  | zero => omega
  | succ fuel ih =>
    rw [walk]
    by_cases ha : a ∈ seen
    · exact ⟨seen, if_pos ha⟩
    rw [if_neg ha]
    cases hnext : next a with
    | none => exact ⟨_, rfl⟩
    | some b =>
      apply ih
      have hlt : (dom.filter (· ∉ a :: seen)).length < (dom.filter (· ∉ seen)).length := by
        have hfilter : dom.filter (· ∉ a :: seen) = (dom.filter (· ∉ seen)).filter (· ≠ a) := by
          rw [List.filter_filter]
          apply List.filter_congr
          intro s _
          rw [← Bool.decide_and, decide_eq_decide, List.mem_cons, not_or]
        rw [hfilter, List.length_filter_lt_length_iff_exists]
        exact ⟨a, List.mem_filter.2 ⟨hdom a b hnext, decide_eq_true ha⟩, by simp⟩
      omega

end Walk

/-- Fewer links meet the same elements just if each that is missing leads back along the chain. -/
theorem chain_sub_iff {next next' : α → Option α}
    (hsub : ∀ x y, next' x = some y → next x = some y) :
    (∀ b, (∃ k, chain next' a k = some b) ↔ ∃ k, chain next a k = some b) ↔
      ∀ k x y, chain next a k = some x → next' x = none → next x = some y →
        ∃ j ≤ k, chain next a j = some y := by
  have hchain : ∀ k x, chain next' a k = some x → chain next a k = some x := by
    intro k
    induction k with
    | zero => exact fun _ h => h
    | succ k ih =>
      intro x hx
      obtain ⟨c, hc, hx⟩ := Option.bind_eq_some_iff.1 hx
      rw [chain_succ (ih c hc), hsub c x hx]
  constructor
  · intro hall k x y hx hnone hy
    obtain ⟨j, hj⟩ := (hall y).2 ⟨k + 1, (chain_succ hx).trans hy⟩
    rcases Nat.lt_or_ge k j with hlt | hle
    · -- the chain with fewer links ends at `x`
      have hsome : (chain next' a (k + 1)).isSome :=
        chain_isSome_of_le (Option.isSome_iff_exists.2 ⟨y, hj⟩) hlt
      obtain ⟨z, hz⟩ := Option.isSome_iff_exists.1 hsome
      obtain ⟨c, hc, hz⟩ := Option.bind_eq_some_iff.1 hz
      obtain rfl : x = c := Option.some.inj (hx.symm.trans (hchain k c hc))
      cases hnone.symm.trans hz
    · exact ⟨j, hle, hchain j y hj⟩
  · intro hback b
    constructor
    · rintro ⟨k, hk⟩
      exact ⟨k, hchain k b hk⟩
    · rintro ⟨k, hk⟩
      induction k using Nat.strongRecOn generalizing b with
      | _ k ih =>
        cases k with
        | zero => exact ⟨0, hk⟩
        | succ k =>
          obtain ⟨c, hc, hb⟩ := Option.bind_eq_some_iff.1 hk
          cases hnext : next' c with
          | none =>
            obtain ⟨j, hj, hb⟩ := hback k c b hc hnext hb
            exact ih j (by omega) b hb
          | some d =>
            obtain rfl : b = d := Option.some.inj (hb.symm.trans (hsub c d hnext))
            obtain ⟨i, hi⟩ := ih k (Nat.lt_succ_self k) c hc
            exact ⟨i + 1, (chain_succ hi).trans hnext⟩

end Prog

import Mathlib.Algebra.Order.Group.Int
import Mathlib.Data.List.Induction
import Mathlib.Data.Prod.Lex

namespace Prog
open Float.Model
set_option autoImplicit true

/-- Where a floating-point number lies among the others, by sign, exponent and mantissa. -/
def rank : UnpackedFloat → Option (ℤ ×ₗ ℤ ×ₗ ℤ)
  | .notANumber => none
  | .infinity .negative => some (toLex (-2, toLex (0, 0)))
  | .finite .negative m e _ => some (toLex (-1, toLex (-e, -(m : ℤ))))
  | .zero _ => some (toLex (0, toLex (0, 0)))
  | .finite .positive m e _ => some (toLex (1, toLex (e, (m : ℤ))))
  | .infinity .positive => some (toLex (2, toLex (0, 0)))

theorem magnitudes_lt (e e' : ℤ) (m m' : ℕ) :
    (compare e e').then (compare m m') = .lt ↔ e < e' ∨ e = e' ∧ (m : ℤ) < m' := by
  rw [Ordering.then_eq_lt, compare_lt_iff_lt, compare_eq_iff_eq, compare_lt_iff_lt, Int.ofNat_lt]

theorem magnitudes_gt (e e' : ℤ) (m m' : ℕ) :
    (compare e e').then (compare m m') = .gt ↔ e' < e ∨ e = e' ∧ (m' : ℤ) < m := by
  rw [Ordering.then_eq_gt, compare_gt_iff_gt, compare_eq_iff_eq, compare_gt_iff_gt, Int.ofNat_lt]

theorem unpacked_compare_lt (u v : UnpackedFloat) : u.compare v = some .lt ↔
    ∃ x y, rank u = some x ∧ rank v = some y ∧ x < y := by
  rcases u with ⟨_ | _⟩ | _ | _ | ⟨_ | _, m, e, _⟩ <;>
    rcases v with ⟨_ | _⟩ | _ | _ | ⟨_ | _, m', e', _⟩ <;>
      dsimp only [UnpackedFloat.compare, rank] <;>
        simp [Prod.Lex.toLex_lt_toLex, magnitudes_lt, magnitudes_gt]
  rfl

theorem float_lt_iff {a b : Float} : a < b ↔
    ∃ x y, rank a.toModel.unpack = some x ∧ rank b.toModel.unpack = some y ∧ x < y := by
  rw [← unpacked_compare_lt, ← beq_iff_eq]
  exact decide_eq_true_iff

/-- A comparison with what is not a number is false, so that the order of the others is kept. -/
theorem float_lt_trans {a b c : Float} (h : a < b) (h' : b < c) : a < c := by
  obtain ⟨x, y, hx, hy, hxy⟩ := float_lt_iff.1 h
  obtain ⟨y', z, hy', hz, hyz⟩ := float_lt_iff.1 h'
  obtain rfl : y = y' := Option.some.inj (hy.symm.trans hy')
  exact float_lt_iff.2 ⟨x, z, hx, hz, hxy.trans hyz⟩

theorem float_lt_irrefl (a : Float) : ¬ a < a := by
  intro h
  obtain ⟨x, y, hx, hy, hxy⟩ := float_lt_iff.1 h
  obtain rfl : x = y := Option.some.inj (hx.symm.trans hy)
  exact absurd hxy (lt_irrefl x)

/-- The larger of two numbers, the first where they do not compare. -/
def floatMax (a b : Float) : Float := if a < b then b else a

/-- The largest of the numbers that are positive, or 0. -/
def best (xs : List Float) : Float := xs.foldl floatMax 0

theorem best_append (xs : List Float) (x : Float) :
    best (xs ++ [x]) = floatMax (best xs) x := by
  rw [best, List.foldl_append]
  rfl

theorem best_mem (xs : List Float) : best xs = 0 ∨ 0 < best xs ∧ best xs ∈ xs := by
  induction xs using List.reverseRecOn with
  | nil => exact .inl rfl
  | append_singleton xs x ih =>
    rw [best_append, floatMax]
    split
    · next hlt =>
      refine .inr ⟨?_, List.mem_append.2 (.inr List.mem_cons_self)⟩
      rcases ih with h0 | ⟨hpos, -⟩
      · rwa [h0] at hlt
      · exact float_lt_trans hpos hlt
    · exact ih.imp_right fun h => ⟨h.1, List.mem_append.2 (.inl h.2)⟩

theorem best_not_lt {xs : List Float} (hx : x ∈ xs) : ¬ best xs < x := by
  induction xs using List.reverseRecOn with
  | nil => cases hx
  | append_singleton xs y ih =>
    rw [best_append, floatMax]
    rcases List.mem_append.1 hx with hmem | hmem
    · split
      · next hlt => exact fun h => ih hmem (float_lt_trans hlt h)
      · exact ih hmem
    · obtain rfl := List.mem_singleton.1 hmem
      split
      · exact float_lt_irrefl x
      · next hle => exact hle

end Prog

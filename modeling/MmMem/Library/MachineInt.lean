import Mathlib.Algebra.Group.Nat.Defs

namespace Prog
set_option autoImplicit true

/-- The value an expression of a 32-bit unsigned type has. -/
def u32 (n : Nat) : Nat := n % 2 ^ 32

/-- The value an expression of a 64-bit unsigned type has. -/
def u64 (n : Nat) : Nat := n % 2 ^ 64

def u64Sub (a b : Nat) : Nat := u64 (a + 2 ^ 64 - b)

theorem u32_lt (n : Nat) : u32 n < 2 ^ 32 := Nat.mod_lt _ (by decide)

theorem u64_lt (n : Nat) : u64 n < 2 ^ 64 := Nat.mod_lt _ (by decide)

theorem u32_eq (h : n < 2 ^ 32) : u32 n = n := Nat.mod_eq_of_lt h

theorem u64_eq (h : n < 2 ^ 64) : u64 n = n := Nat.mod_eq_of_lt h

theorem u64Sub_eq (hb : b ≤ a) (ha : a < 2 ^ 64) : u64Sub a b = a - b := by
  simp only [u64Sub, u64]
  omega

end Prog

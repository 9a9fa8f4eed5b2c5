import MmMem.CommandLine

namespace MmMem
open Prog
set_option autoImplicit true

theorem toList_toString (n : Nat) : (toString n).toList = Nat.toDigits 10 n := by
  rw [Nat.toString_eq_ofList_toDigits, String.toList_ofList]

theorem toNat_emod_pow (n w : Nat) : ((n : Int) % 2 ^ w).toNat = n % 2 ^ w := by
  rw [← Int.toNat_natCast (n % 2 ^ w), Int.natCast_emod, Int.natCast_pow, Int.cast_ofNat_Int]

theorem uint32_ofInt (n : Nat) : UInt32.ofInt n = .ofNat n := by
  rw [UInt32.ofInt, toNat_emod_pow, UInt32.ofNat_mod_size]

theorem uint64_ofInt (n : Nat) : UInt64.ofInt n = .ofNat n := by
  rw [UInt64.ofInt, toNat_emod_pow, UInt64.ofNat_mod_size]

theorem decimal_toDigits (n : Nat) : decimal (Nat.toDigits 10 n) = n := by
  have h := Nat.ofDigitChars_toDigits (b := 10) (n := n) (by decide) (by decide)
  rwa [Nat.ofDigitChars_eq_foldl] at h

theorem toDigits_isDigit (h : c ∈ Nat.toDigits 10 n) : c.isDigit = true :=
  Nat.isDigit_of_mem_toDigits (by decide) (by decide) h

theorem toDigits_cons (n : Nat) : ∃ c digits, Nat.toDigits 10 n = c :: digits ∧ c.isDigit = true ∧
    c ≠ '+' ∧ c ≠ '-' := by
  cases h : Nat.toDigits 10 n with
  | nil => exact absurd h Nat.toDigits_ne_nil
  | cons c digits =>
    have hc : c.isDigit = true := toDigits_isDigit (h ▸ List.mem_cons_self)
    refine ⟨c, digits, rfl, hc, ?_, ?_⟩
    · rintro rfl
      cases hc
    · rintro rfl
      cases hc

theorem stoull_unsigned (hplus : c ≠ '+') (digits : Text) : stoull (c :: digits) =
    if (decimal (c :: digits) : Int) < 2 ^ 64 then .ok (decimal (c :: digits) : Int)
    else .error "stoull".toList := by
  unfold stoull
  split
  · next heq => exact absurd (List.cons.inj heq).1 hplus
  · rfl

theorem IntType.cast_ofNat {t : IntType} (ht : t.signed = false) {n : Nat} (h : n < 2 ^ t.bits) :
    t.cast n = n := by
  have hn : (n : Int) < 2 ^ t.bits := by exact_mod_cast h
  rw [IntType.cast, IntType.min, ht, if_neg Bool.false_ne_true, Int.sub_zero, Int.add_zero,
    Int.emod_eq_of_lt (Int.natCast_nonneg n) hn]

theorem stoull_toDigits (n : Nat) : stoull (Nat.toDigits 10 n) =
    if (n : Int) < 2 ^ 64 then .ok (n : Int) else .error "stoull".toList := by
  obtain ⟨c, digits, h, -, hplus, -⟩ := toDigits_cons n
  have hn := decimal_toDigits n
  rw [h] at hn ⊢
  rw [stoull_unsigned hplus, hn]

theorem IntType.assign_toDigits {t : IntType} (ht : t.signed = false) (n : Nat) :
    t.assign (Nat.toDigits 10 n) = if (n : Int) < 2 ^ 64 then
      if (n : Int) > t.max then .error "integer out of range".toList else .ok (t.cast n)
      else .error "stoull".toList := by
  obtain ⟨c, digits, h, -, hplus, hminus⟩ := toDigits_cons n
  have hfind : (Nat.toDigits 10 n).findIdx? (fun c => c != '+' && c != '-') = some 0 := by
    rw [h, List.findIdx?_cons]
    simp [hplus, hminus]
  have hdigits : (Nat.toDigits 10 n).any (fun c => !c.isDigit) = false := by
    rw [List.any_eq_false]
    intro c hc
    rw [toDigits_isDigit hc]
    exact Bool.false_ne_true
  have hhead : (Nat.toDigits 10 n).head? ≠ some '-' := by
    rw [h]
    exact fun heq => hminus (Option.some.inj heq)
  rw [IntType.assign, hfind]
  simp only [List.drop_zero, hdigits, ht, if_neg hhead, stoull_toDigits]
  by_cases hn : (n : Int) < 2 ^ 64
  · rw [if_pos hn, if_pos hn]
    rfl
  · rw [if_neg hn, if_neg hn]
    rfl

theorem IntType.assign_toString {t : IntType} (ht : t.signed = false) (hbits : t.bits ≤ 64)
    (n : Nat) (v : Int) :
    t.assign (toString n).toList = .ok v ↔ n < 2 ^ t.bits ∧ v = n := by
  have hmax : t.max = 2 ^ t.bits - 1 := by rw [IntType.max, ht, if_neg Bool.false_ne_true]
  rw [toList_toString, IntType.assign_toDigits ht]
  by_cases hn : n < 2 ^ t.bits
  · have hfits : (n : Int) < 2 ^ t.bits := by exact_mod_cast hn
    have hlong : (n : Int) < 2 ^ 64 := by
      exact_mod_cast Nat.lt_of_lt_of_le hn (Nat.pow_le_pow_right (by decide) hbits)
    have hle : ¬ (n : Int) > t.max := by
      rw [hmax]
      omega
    rw [if_pos hlong, if_neg hle, IntType.cast_ofNat ht hn]
    constructor
    · exact fun heq => ⟨hn, (Except.ok.inj heq).symm⟩
    · rintro ⟨-, rfl⟩
      rfl
  · have hlarge : (n : Int) > t.max := by
      rw [hmax]
      have hge : (2 ^ t.bits : Int) ≤ n := by exact_mod_cast Nat.le_of_not_lt hn
      omega
    rw [if_pos hlarge]
    refine iff_of_false (fun heq => ?_) fun h => hn h.1
    split at heq
    · cases heq
    · cases heq

theorem converts_iff {t : IntType} (ht : t.signed = false) (hbits : t.bits ≤ 64) (n : Nat) :
    (∃ v, t.assign (toString n).toList = .ok v) ↔ n < 2 ^ t.bits := by
  constructor
  · rintro ⟨v, hv⟩
    exact ((IntType.assign_toString ht hbits n v).1 hv).1
  · intro hn
    exact ⟨n, (IntType.assign_toString ht hbits n n).2 ⟨hn, rfl⟩⟩

theorem toString_not_dashes (n : Nat) : (toString n).toList.take 2 ≠ dashes := by
  obtain ⟨c, digits, h, -, -, hminus⟩ := toDigits_cons n
  rw [toList_toString, h]
  exact fun heq => hminus (List.cons.inj heq).1

end MmMem

import MmMem.CommandLineValues
import MmMem.Library.FallibleScript

namespace MmMem
open Prog
set_option autoImplicit true

/-- The closure `value` installs, with the target as its state. -/
def IntType.assignTarget (t : IntType) (text : Text) : Script Text Int Unit :=
  match text.findIdx? fun c => c != '+' && c != '-' with
  | none => Script.raise "expected a decimal integer".toList
  | some first =>
    if first > 1 || (text.drop first).any fun c => !c.isDigit then
      Script.raise "expected a decimal integer".toList
    else if t.signed then do
      let parsed ← Script.ofExcept (stoll text)
      if parsed < t.min ∨ parsed > t.max then Script.raise "integer out of range".toList
      else Script.modify fun _ => t.cast parsed
    else if text.head? = some '-' then Script.raise "expected a nonnegative integer".toList
    else do
      let parsed ← Script.ofExcept (stoull text)
      if parsed > t.max then Script.raise "integer out of range".toList
      else Script.modify fun _ => t.cast parsed

theorem IntType.assignTarget_eq (t : IntType) (text : Text) (previous : Int) :
    t.assignTarget text previous =
      match t.assign text with
      | .ok v => (.ok (), v)
      | .error what => (.error what, previous) := by
  rw [IntType.assignTarget, IntType.assign]
  cases text.findIdx? fun c => c != '+' && c != '-' with
  | none => rfl
  | some first =>
    dsimp only
    split
    · rfl
    split
    · rw [Script.ofExcept_bind]
      cases stoll text with
      | error what => rfl
      | ok parsed =>
        by_cases hout : parsed < t.min ∨ parsed > t.max
        · simp only [if_pos hout, bind, Except.bind]
          rfl
        · simp only [if_neg hout, bind, Except.bind]
          rfl
    split
    · rfl
    · rw [Script.ofExcept_bind]
      cases stoull text with
      | error what => rfl
      | ok parsed =>
        by_cases hout : parsed > t.max
        · simp only [if_pos hout, bind, Except.bind]
          rfl
        · simp only [if_neg hout, bind, Except.bind]
          rfl

/-- One or more decimal digits. -/
def Digits (digits : Text) : Prop := digits ≠ [] ∧ ∀ c ∈ digits, c.isDigit = true

/-- A single optional sign and digits, with the value they have; `-` only if it is allowed. -/
inductive Numeral (minusAllowed : Bool) : Text → Int → Prop where
  | bare (h : Digits digits) : Numeral minusAllowed digits (decimal digits)
  | plus (h : Digits digits) : Numeral minusAllowed ('+' :: digits) (decimal digits)
  | minus (ha : minusAllowed = true) (h : Digits digits) :
    Numeral minusAllowed ('-' :: digits) (-decimal digits)

theorem ne_sign_of_isDigit (h : c.isDigit = true) : c ≠ '+' ∧ c ≠ '-' := by
  constructor
  · rintro rfl
    cases h
  · rintro rfl
    cases h

theorem Digits.cons (h : Digits digits) : ∃ c ds, digits = c :: ds ∧ c ≠ '+' ∧ c ≠ '-' := by
  obtain ⟨hne, hall⟩ := h
  cases digits with
  | nil => exact absurd rfl hne
  | cons c ds => exact ⟨c, ds, rfl, ne_sign_of_isDigit (hall c List.mem_cons_self)⟩

theorem Digits.any (h : Digits digits) : (digits.any fun c => !c.isDigit) = false := by
  rw [List.any_eq_false]
  intro c hc
  rw [h.2 c hc]
  exact Bool.false_ne_true

theorem digits_of_any (hne : digits ≠ []) (h : (digits.any fun c => !c.isDigit) = false) :
    Digits digits := by
  refine ⟨hne, fun c hc => ?_⟩
  have hdigit := List.any_eq_false.1 h c hc
  rwa [Bool.not_eq_true, Bool.not_eq_false'] at hdigit

/-- What the two scans of `value` let through. -/
def Scanned (text : Text) (first : Nat) : Prop :=
  (text.findIdx? fun c => c != '+' && c != '-') = some first ∧
    (first > 1 || (text.drop first).any fun c => !c.isDigit) = false

theorem Digits.findIdx (h : Digits digits) :
    (digits.findIdx? fun c => c != '+' && c != '-') = some 0 := by
  obtain ⟨c, ds, rfl, hplus, hminus⟩ := h.cons
  rw [List.findIdx?_cons, if_pos]
  rw [bne_iff_ne.2 hplus, bne_iff_ne.2 hminus]
  rfl

theorem Numeral.scanned (h : Numeral a text n) : ∃ first, Scanned text first := by
  cases h with
  | bare h => exact ⟨0, h.findIdx, h.any⟩
  | plus h => exact ⟨1, by rw [List.findIdx?_cons, h.findIdx]; rfl, h.any⟩
  | minus ha h => exact ⟨1, by rw [List.findIdx?_cons, h.findIdx]; rfl, h.any⟩

theorem not_digits_plus : ¬ Digits ('+' :: digits) := fun h =>
  (ne_sign_of_isDigit (h.2 '+' List.mem_cons_self)).1 rfl

theorem not_digits_minus : ¬ Digits ('-' :: digits) := fun h =>
  (ne_sign_of_isDigit (h.2 '-' List.mem_cons_self)).2 rfl

theorem Scanned.sign (hc : (c != '+' && c != '-') = false) (h : Scanned (c :: digits) first) :
    Digits digits := by
  obtain ⟨hfind, hok⟩ := h
  rw [List.findIdx?_cons, hc, if_neg Bool.false_ne_true] at hfind
  obtain ⟨k, hk, rfl⟩ := Option.map_eq_some_iff.1 hfind
  rw [Bool.or_eq_false_iff, decide_eq_false_iff_not] at hok
  obtain rfl : k = 0 := by omega
  apply digits_of_any _ hok.2
  rintro rfl
  cases hk

/-- The scans let nothing else through; whether `-` is allowed is checked after them. -/
theorem Scanned.numeral (h : Scanned text first) : ∃ n, Numeral true text n := by
  cases text with
  | nil => cases h.1
  | cons c digits =>
    by_cases hplus : c = '+'
    · subst hplus
      exact ⟨_, .plus (h.sign rfl)⟩
    by_cases hminus : c = '-'
    · subst hminus
      exact ⟨_, .minus rfl (h.sign rfl)⟩
    · obtain ⟨hfind, hok⟩ := h
      rw [List.findIdx?_cons, if_pos (by rw [bne_iff_ne.2 hplus, bne_iff_ne.2 hminus]; rfl)] at hfind
      cases hfind
      rw [Bool.or_eq_false_iff] at hok
      exact ⟨_, .bare (digits_of_any (List.cons_ne_nil c digits) hok.2)⟩

theorem Numeral.stoll (h : Numeral a text n) : MmMem.stoll text =
    if -2 ^ 63 ≤ n ∧ n < 2 ^ 63 then .ok n else .error "stoll".toList := by
  cases h with
  | bare h =>
    obtain ⟨c, ds, rfl, hplus, hminus⟩ := h.cons
    unfold MmMem.stoll
    split
    · next heq => exact absurd (List.cons.inj heq).1 hminus
    · next heq => exact absurd (List.cons.inj heq).1 hplus
    · rfl
  | plus h => rfl
  | minus ha h => rfl

theorem Numeral.stoull (h : Numeral false text n) : MmMem.stoull text =
    if n < 2 ^ 64 then .ok n else .error "stoull".toList := by
  cases h with
  | bare h =>
    obtain ⟨c, ds, rfl, hplus, -⟩ := h.cons
    exact stoull_unsigned hplus ds
  | plus h => rfl
  | minus ha h => cases ha

theorem Numeral.unique (h : Numeral a text n) (h' : Numeral b text v) : v = n := by
  cases h with
  | bare h =>
    cases h' with
    | bare h' => rfl
    | plus h' => exact absurd h not_digits_plus
    | minus hb h' => exact absurd h not_digits_minus
  | plus h =>
    cases h' with
    | bare h' => exact absurd h' not_digits_plus
    | plus h' => rfl
  | minus ha h =>
    cases h' with
    | bare h' => exact absurd h' not_digits_minus
    | minus hb h' => rfl

theorem Numeral.unsigned (h : Numeral true text n) (hhead : text.head? ≠ some '-') :
    Numeral false text n := by
  cases h with
  | bare h => exact .bare h
  | plus h => exact .plus h
  | minus ha h => exact absurd rfl hhead

theorem Numeral.head_ne (h : Numeral false text n) : text.head? ≠ some '-' := by
  cases h with
  | bare h =>
    obtain ⟨c, ds, rfl, -, hminus⟩ := h.cons
    exact fun heq => hminus (Option.some.inj heq)
  | plus h => exact nofun
  | minus ha h => cases ha

variable {t : IntType}

/-- The range of the type. -/
def IntType.Holds (t : IntType) (n : Int) : Prop := t.min ≤ n ∧ n ≤ t.max

theorem IntType.holds_iff (hs : t.signed = false) :
    t.Holds n ↔ ∃ k : Nat, k < 2 ^ t.bits ∧ n = k := by
  have hmin : t.min = 0 := by rw [IntType.min, hs, if_neg Bool.false_ne_true]
  have hmax : t.max = 2 ^ t.bits - 1 := by rw [IntType.max, hs, if_neg Bool.false_ne_true]
  rw [IntType.Holds, hmin, hmax, Int.le_sub_one_iff]
  constructor
  · rintro ⟨hn, hlt⟩
    obtain ⟨k, rfl⟩ := Int.eq_ofNat_of_zero_le hn
    exact ⟨k, by exact_mod_cast hlt, rfl⟩
  · rintro ⟨k, hk, rfl⟩
    exact ⟨Int.natCast_nonneg k, by exact_mod_cast hk⟩

theorem IntType.cast_eq (hbits : 1 ≤ t.bits) (h : t.Holds n) : t.cast n = n := by
  obtain ⟨hmin, hmax⟩ := h
  have hwidth : t.max - t.min = 2 ^ t.bits - 1 := by
    obtain ⟨k, hk⟩ : ∃ k, t.bits = k + 1 := ⟨t.bits - 1, by omega⟩
    rw [IntType.max, IntType.min, hk]
    split
    · rw [Nat.add_sub_cancel, Int.pow_succ]
      omega
    · omega
  rw [IntType.cast, Int.emod_eq_of_lt (by omega) (by omega)]
  omega

theorem IntType.Holds.signed64 (hs : t.signed = true) (hbits : t.bits ≤ 64) (h : t.Holds n) :
    -2 ^ 63 ≤ n ∧ n < 2 ^ 63 := by
  obtain ⟨hmin, hmax⟩ := h
  rw [IntType.min, if_pos hs] at hmin
  rw [IntType.max, if_pos hs] at hmax
  have hpow : (2 : Int) ^ (t.bits - 1) ≤ 2 ^ 63 := by
    exact_mod_cast Nat.pow_le_pow_right (by decide) (show t.bits - 1 ≤ 63 by omega)
  omega

theorem IntType.Holds.unsigned64 (hs : t.signed = false) (hbits : t.bits ≤ 64) (h : t.Holds n) :
    n < 2 ^ 64 := by
  obtain ⟨k, hk, rfl⟩ := (IntType.holds_iff hs).1 h
  exact_mod_cast Nat.lt_of_lt_of_le hk (Nat.pow_le_pow_right (by decide) hbits)

/-- After the scans, a signed type takes what `stoll` parses if it is in range. -/
theorem Numeral.assign_signed (h : Numeral true text n) (hs : t.signed = true)
    (hpos : 1 ≤ t.bits) (hbits : t.bits ≤ 64) : t.assign text = .ok v ↔ t.Holds n ∧ v = n := by
  obtain ⟨first, hfind, hok⟩ := h.scanned
  rw [IntType.assign, hfind]
  simp only [hok, hs, Bool.false_eq_true, ↓reduceIte, h.stoll]
  by_cases hn : t.Holds n
  · rw [if_pos (hn.signed64 hs hbits)]
    have hin : ¬ (n < t.min ∨ n > t.max) := not_or.2 ⟨Int.not_lt.2 hn.1, Int.not_lt.2 hn.2⟩
    change (if n < t.min ∨ n > t.max then _ else Except.ok (t.cast n)) = _ ↔ _
    rw [if_neg hin, IntType.cast_eq hpos hn, Except.ok.injEq]
    exact ⟨fun he => ⟨hn, he.symm⟩, fun he => he.2.symm⟩
  · refine iff_of_false ?_ fun he => hn he.1
    split
    · have hout : n < t.min ∨ n > t.max := by
        rcases not_and_or.1 hn with hlow | hhigh
        · exact .inl (Int.not_le.1 hlow)
        · exact .inr (Int.not_le.1 hhigh)
      change (if n < t.min ∨ n > t.max then _ else Except.ok (t.cast n)) ≠ _
      rw [if_pos hout]
      intro he
      cases he
    · intro he
      cases he

theorem Numeral.assign_unsigned (h : Numeral false text n) (hs : t.signed = false)
    (hpos : 1 ≤ t.bits) (hbits : t.bits ≤ 64) : t.assign text = .ok v ↔ t.Holds n ∧ v = n := by
  obtain ⟨first, hfind, hok⟩ := h.scanned
  have hmin : t.min ≤ n := by
    rw [IntType.min, hs, if_neg Bool.false_ne_true]
    cases h with
    | bare h => exact Int.natCast_nonneg _
    | plus h => exact Int.natCast_nonneg _
    | minus ha h => cases ha
  rw [IntType.assign, hfind]
  simp only [hok, hs, Bool.false_eq_true, ↓reduceIte, if_neg h.head_ne, h.stoull]
  by_cases hn : t.Holds n
  · rw [if_pos (hn.unsigned64 hs hbits)]
    change (if n > t.max then _ else Except.ok (t.cast n)) = _ ↔ _
    rw [if_neg (Int.not_lt.2 hn.2), IntType.cast_eq hpos hn, Except.ok.injEq]
    exact ⟨fun he => ⟨hn, he.symm⟩, fun he => he.2.symm⟩
  · refine iff_of_false ?_ fun he => hn he.1
    split
    · change (if n > t.max then _ else Except.ok (t.cast n)) ≠ _
      rw [if_pos (Int.not_le.1 fun hmax => hn ⟨hmin, hmax⟩)]
      intro he
      cases he
    · intro he
      cases he

theorem IntType.assign_ok_iff (hpos : 1 ≤ t.bits) (hbits : t.bits ≤ 64) :
    t.assign text = .ok v ↔ Numeral t.signed text v ∧ t.Holds v := by
  by_cases hscan : ∃ first, Scanned text first
  · obtain ⟨first, hfirst⟩ := hscan
    obtain ⟨n, hn⟩ := hfirst.numeral
    cases hs : t.signed with
    | true =>
      rw [hn.assign_signed hs hpos hbits]
      constructor
      · rintro ⟨hrange, rfl⟩
        exact ⟨hn, hrange⟩
      · rintro ⟨hv, hrange⟩
        obtain rfl := hn.unique hv
        exact ⟨hrange, rfl⟩
    | false =>
      by_cases hhead : text.head? = some '-'
      · refine iff_of_false ?_ fun h => h.1.head_ne hhead
        rw [IntType.assign, hfirst.1]
        simp only [hfirst.2, hs, Bool.false_eq_true, ↓reduceIte, if_pos hhead]
        intro he
        cases he
      · have hn' := hn.unsigned hhead
        rw [hn'.assign_unsigned hs hpos hbits]
        constructor
        · rintro ⟨hrange, rfl⟩
          exact ⟨hn', hrange⟩
        · rintro ⟨hv, hrange⟩
          obtain rfl := hn'.unique hv
          exact ⟨hrange, rfl⟩
  · refine iff_of_false ?_ fun h => hscan h.1.scanned
    rw [IntType.assign]
    intro he
    split at he
    · cases he
    · next first hfind =>
      rw [if_pos (by
        rw [← Bool.not_eq_false]
        exact fun hok => hscan ⟨first, hfind, hok⟩)] at he
      cases he

theorem digits_toDigits (n : Nat) : Digits (Nat.toDigits 10 n) :=
  ⟨Nat.toDigits_ne_nil, fun _ hc => toDigits_isDigit hc⟩

theorem numeral_toString (n : Int) (h : n < 0 → a = true) : Numeral a (toString n).toList n := by
  cases n with
  | ofNat n =>
    have hbare : Numeral a _ _ := Numeral.bare (digits_toDigits n)
    rw [decimal_toDigits] at hbare
    change Numeral a (toString n).toList n
    rwa [toList_toString]
  | negSucc n =>
    have hminus := Numeral.minus (h (Int.negSucc_lt_zero n)) (digits_toDigits (n + 1))
    rw [decimal_toDigits] at hminus
    change Numeral a ("-" ++ toString (n + 1)).toList (-((n + 1 : Nat) : Int))
    rwa [String.toList_append, toList_toString]

/-- An integer option takes the numerals in the range of its type, each for its value, and any other
string throws and leaves the target alone. -/
theorem integer_option_exact (t : IntType) (hwide : 8 ≤ t.bits) (hbits : t.bits ≤ 64) :
    (∀ text previous v, t.assignTarget text previous = (.ok (), v) ↔
      Numeral t.signed text v ∧ t.min ≤ v ∧ v ≤ t.max) ∧
    (∀ text previous what after, t.assignTarget text previous = (.error what, after) →
      after = previous) ∧
    ∀ n previous, t.min ≤ n → n ≤ t.max →
      t.assignTarget (toString n).toList previous = (.ok (), n) := by
  have hiff : ∀ text previous v, t.assignTarget text previous = (.ok (), v) ↔
      Numeral t.signed text v ∧ t.min ≤ v ∧ v ≤ t.max := by
    intro text previous v
    rw [IntType.assignTarget_eq]
    refine Iff.trans ?_ (IntType.assign_ok_iff (by omega) hbits)
    cases t.assign text with
    | ok n => exact ⟨fun he => by cases he; rfl, fun he => by cases he; rfl⟩
    | error what => exact ⟨nofun, nofun⟩
  refine ⟨hiff, fun text previous what after he => ?_, fun n previous hmin hmax => ?_⟩
  · rw [IntType.assignTarget_eq] at he
    cases hout : t.assign text with
    | ok n =>
      rw [hout] at he
      cases he
    | error what' =>
      rw [hout] at he
      cases he
      rfl
  · refine (hiff _ _ _).2 ⟨numeral_toString n fun hneg => ?_, hmin, hmax⟩
    cases hs : t.signed with
    | true => rfl
    | false =>
      rw [IntType.min, hs, if_neg Bool.false_ne_true] at hmin
      exact absurd hneg (Int.not_lt.2 hmin)

/-- The lowest value of a signed type of 8 bits. -/
theorem integer_option_exact_lowest :
    (⟨true, 8⟩ : IntType).assignTarget (toString (-128 : Int)).toList 5 = (.ok (), -128) :=
  (integer_option_exact ⟨true, 8⟩ (by decide) (by decide)).2.2 (-128) 5 (by decide) (by decide)

end MmMem

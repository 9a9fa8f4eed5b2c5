import MmMem.Library.ForkJoin
import MmMem.Library.MachineInt
import MmMem.Library.PointerChain

namespace Prog
set_option autoImplicit true

/-- The bytes at the addresses. -/
abbrev Bytes : Type := Nat → UInt8

namespace Bytes

variable {b b' : Bytes}

/-- The number in the `n` bytes from `a` on, the lowest byte first. -/
def number (b : Bytes) : Nat → Nat → Nat
  | 0, _ => 0
  | n + 1, a => (b a).toNat + 256 * number b n (a + 1)

def write (b : Bytes) : Nat → Nat → Nat → Bytes
  | 0, _, _ => b
  | n + 1, a, v => write (Function.update b a (.ofNat v)) n (a + 1) (v / 256)

theorem number_congr (h : ∀ c, a ≤ c → c < a + n → b c = b' c) :
    b.number n a = b'.number n a := by
  induction n generalizing a with
  | zero => rfl
  | succ n ih =>
    rw [number, number, h a (Nat.le_refl a) (by omega),
      ih fun c hle hlt => h c (by omega) (by omega)]

theorem write_apart (b : Bytes) (v : Nat) (h : c < a ∨ a + n ≤ c) : b.write n a v c = b c := by
  induction n generalizing a v b with
  | zero => rfl
  | succ n ih =>
    rw [write, ih _ _ (by omega)]
    exact Function.update_of_ne (by omega) ..

theorem number_write (b : Bytes) (n a v : Nat) : (b.write n a v).number n a = v % 256 ^ n := by
  induction n generalizing a v b with
  | zero => exact (Nat.mod_one v).symm
  | succ n ih =>
    have hlow : (UInt8.ofNat v).toNat = v % 256 := UInt8.toNat_ofNat'
    rw [number, write, ih, write_apart _ _ (.inl (Nat.lt_succ_self a)), Function.update_self, hlow,
      Nat.pow_succ']
    exact Nat.mod_mul.symm

theorem number_write_apart (b : Bytes) (v : Nat) (h : c + k ≤ a ∨ a + n ≤ c) :
    (b.write n a v).number k c = b.number k c :=
  number_congr fun x hle hlt => write_apart b v (by omega)

end Bytes

/-- A load or a store of one byte. -/
inductive ByteAccess where
  | load (a : Nat)
  | store (a : Nat) (x : UInt8)
  deriving Repr, DecidableEq

def ByteAccess.Answer : ByteAccess → Type
  | .load _ => UInt8
  | .store _ _ => Unit

def ByteAccess.address : ByteAccess → Nat
  | .load a => a
  | .store a _ => a

def ByteAccess.isStore : ByteAccess → Bool
  | .load _ => false
  | .store _ _ => true

/-- Two accesses of the same byte, one of which stores. -/
def ByteAccess.Conflict (o o' : ByteAccess) : Prop :=
  o.address = o'.address ∧ (o.isStore = true ∨ o'.isStore = true)

instance (o o' : ByteAccess) : Decidable (o.Conflict o') := inferInstanceAs (Decidable (_ ∧ _))

def byteMemory : SharedObject ByteAccess ByteAccess.Answer Bytes
  | .load a, b => (b a, b)
  | .store a x, b => ((), Function.update b a x)

namespace Caller

/-- A load of `n` bytes, one after the other. -/
def loadNumber : Nat → Nat → Caller ByteAccess ByteAccess.Answer ε Nat
  | 0, _ => pure 0
  | n + 1, a => do
    let x ← ask (ByteAccess.load a)
    let high ← loadNumber n (a + 1)
    return UInt8.toNat x + 256 * high

def storeNumber : Nat → Nat → Nat → Caller ByteAccess ByteAccess.Answer ε Unit
  | 0, _, _ => pure ()
  | n + 1, a, v => do
    ask (ByteAccess.store a (.ofNat v))
    storeNumber n (a + 1) (v / 256)

variable {may : ByteAccess → Prop} {b : Bytes}

theorem Refines.loadNumber {R : Nat → Bytes → β → Prop}
    (hmay : ∀ c, a ≤ c → c < a + n → may (.load c)) (h : R (b.number n a) b y) :
    (Caller.loadNumber n a : Caller _ _ ε Nat).Refines byteMemory may R b
      (.done y : Run ε' β) := by
  induction n generalizing a R β with
  | zero => exact .done h
  | succ n ih =>
    have hlow : (Caller.ask (ByteAccess.load a) : Caller _ ByteAccess.Answer ε _).Refines byteMemory may
        (fun x s _ => x = b a ∧ s = b) b (.done () : Run ε' Unit) :=
      .ask (hmay a (Nat.le_refl a) (by omega)) ⟨rfl, rfl⟩
    apply hlow.bind (g := fun _ => .done y)
    rintro x s - ⟨rfl, rfl⟩
    have hhigh := ih (R := fun high t _ => high = s.number n (a + 1) ∧ t = s) (β := Unit)
      (y := ()) (a := a + 1) (fun c hle hlt => hmay c (by omega) (by omega)) ⟨rfl, rfl⟩
    apply hhigh.bind (g := fun _ => .done y)
    rintro high t - ⟨rfl, rfl⟩
    exact .done h

theorem Refines.storeNumber {R : Unit → Bytes → β → Prop}
    (hmay : ∀ c x, a ≤ c → c < a + n → may (.store c x)) (h : R () (b.write n a v) y) :
    (Caller.storeNumber n a v : Caller _ _ ε Unit).Refines byteMemory may R b
      (.done y : Run ε' β) := by
  induction n generalizing a v b with
  | zero => exact .done h
  | succ n ih =>
    have hlow : (Caller.ask (ByteAccess.store a (.ofNat v)) : Caller _ ByteAccess.Answer ε _).Refines
        byteMemory may (fun _ s _ => s = Function.update b a (.ofNat v)) b
        (.done () : Run ε' Unit) :=
      .ask (hmay a _ (Nat.le_refl a) (by omega)) rfl
    apply hlow.bind (g := fun _ => .done y)
    rintro _ s - rfl
    exact ih (fun c x hle hlt => hmay c x (by omega) (by omega)) h

end Caller

/-- Addresses that are divided among threads. -/
structure Territory (κ : Type) where
  mine : κ → Nat → Prop
  apart : v ≠ w → mine w a → ¬ mine v a

namespace Territory

variable (T : Territory κ)

/-- Each thread accesses its own addresses, and sees no others. -/
def division : Division κ byteMemory where
  may v o := T.mine v o.address
  Alike v s t := ∀ a, T.mine v a → s a = t a
  refl _ _ _ _ := rfl
  answer {v o s t} hmay h := by
    cases o with
    | load a => exact h a hmay
    | store a x => rfl
  own {v o s t} hmay h a ha := by
    cases o with
    | load c => exact h a ha
    | store c x =>
      change Function.update s c x a = Function.update t c x a
      rw [Function.update_apply, Function.update_apply]
      split
      · rfl
      · exact h a ha
  other {v w o s t} hne hmay h a ha := by
    cases o with
    | load c => exact h a ha
    | store c x =>
      have hac : a ≠ c := fun he => T.apart hne hmay (he ▸ ha)
      exact (Function.update_of_ne hac ..).trans (h a ha)

/-- Accesses of different threads that keep to their addresses do not conflict. -/
theorem no_conflict (hne : v ≠ w) (hv : T.division.may v o) (hw : T.division.may w o') :
    ¬ o.Conflict o' := by
  intro h
  have hmine : T.mine w o.address := h.1 ▸ hw
  exact T.apart hne hmine hv

end Territory

/-- No two threads are about to make accesses that conflict. -/
def Process.RaceFree : Process ByteAccess ByteAccess.Answer Bytes ε α β → Prop
  | .done _ => True
  | .waiting _ s _ => ∀ i j o o' k k', i ≠ j → s.callers i = .call o k →
      s.callers j = .call o' k' → ¬ o.Conflict o'

theorem Process.Kept.raceFree {T : Territory Nat} {E : Run ε β → Prop}
    {p : Process ByteAccess ByteAccess.Answer Bytes ε α β} (h : p.Kept T.division E) :
    p.RaceFree := by
  cases p with
  | done x => trivial
  | waiting n s k =>
    obtain ⟨T', hkept, -⟩ := h
    intro i j o o' k k' hne hi hj
    exact T.no_conflict hne (hkept.may hi) (hkept.may hj)

/-- The bytes from `base` on hold the pointers of a memory of that size. -/
def Represents (base size : Nat) (m : Memory) (b : Bytes) : Prop :=
  ∀ o t, o + 8 ≤ size → m.slot o = some t → b.number 8 (base + o) = u64 (base + t)

theorem Represents.zeroed (base size : Nat) (b : Bytes) : Represents base size .zeroed b :=
  fun _ _ _ h => nomatch h

theorem Represents.congr (h : Represents base size m b)
    (hb : ∀ a, base ≤ a → a < base + size → b a = b' a) : Represents base size m b' := by
  intro o t hfits ht
  rw [← h o t hfits ht]
  exact Bytes.number_congr fun c hle hlt => (hb c (by omega) (by omega)).symm

theorem Represents.store (h : Represents base size m b) (o t : Nat) :
    Represents base size (m.store o t) (b.write 8 (base + o) (u64 (base + t))) := by
  intro a v hfits hv
  by_cases ha : a = o
  · subst ha
    rw [Memory.store_slot_self] at hv
    cases hv
    rw [Bytes.number_write]
    exact Nat.mod_eq_of_lt (u64_lt _)
  · by_cases hap : Apart a o
    · rw [Memory.store_slot_apart m t hap] at hv
      rw [Bytes.number_write_apart b _ (by rcases hap with h | h <;> omega)]
      exact h a v hfits hv
    · rw [Memory.store_slot_overlap m t ha hap] at hv
      cases hv

end Prog

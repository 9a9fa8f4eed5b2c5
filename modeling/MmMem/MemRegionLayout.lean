import MmMem.MemRegion

namespace MmMem
open Prog
set_option autoImplicit true

/-- The integers the constructor leaves in a region. -/
def MemRegion.layout (size activeSize pageSize lineSize : Nat) (memType hugepageType : Int) :
    MemRegion :=
  let page := if pageSize > activeSize then 4096 else pageSize
  { size, activeSize, pageSize := page, lineSize, memType, hugepageType,
    numAllPages := size / page, numActivePages := activeSize / page,
    numLinesInPage := page / lineSize }

theorem MemRegion.new_eq (size activeSize pageSize lineSize : Nat) (memType hugepageType : Int) :
    MemRegion.new size activeSize pageSize lineSize memType hugepageType =
      if pageSize = 0 ∨ lineSize = 0 then .fault .divideByZero
      else .done (.layout size activeSize pageSize lineSize memType hugepageType) := by
  by_cases hp : pageSize = 0
  · simp only [MemRegion.new, divide, hp, ↓reduceIte, Run.fault_bind, true_or]
  · by_cases hl : lineSize = 0
    · simp only [MemRegion.new, divide, hp, hl, ↓reduceIte, Run.done_bind, Run.fault_bind, or_true]
    · have hc : (if pageSize > activeSize then 4096 else pageSize) ≠ 0 := by
        split
        · decide
        · exact hp
      simp only [MemRegion.new, divide, hp, hl, hc, ↓reduceIte, Run.done_bind, Run.pure_eq,
        or_self, MemRegion.layout]

/-- What the rest of the class relies on once the constructor has returned. -/
structure MemRegion.WellFormed (r : MemRegion) : Prop where
  size_lt : r.size < 2 ^ 64
  active_le : r.activeSize ≤ r.size
  page_lt : r.pageSize < 2 ^ 64
  page_pos : 0 < r.pageSize
  line_pos : 0 < r.lineSize
  pages : r.numActivePages = r.activeSize / r.pageSize
  lines : r.numLinesInPage = r.pageSize / r.lineSize

variable {r : MemRegion}

theorem MemRegion.WellFormed.of_new {size activeSize pageSize lineSize : Nat}
    {memType hugepageType : Int}
    (hs : size < 2 ^ 64) (ha : activeSize ≤ size) (hp : pageSize < 2 ^ 64)
    (h : MemRegion.new size activeSize pageSize lineSize memType hugepageType = .done r) :
    r.WellFormed := by
  rw [MemRegion.new_eq] at h
  split at h
  · cases h
  · next hne =>
    rw [not_or] at hne
    cases h
    refine ⟨hs, ha, ?_, ?_, Nat.pos_of_ne_zero hne.2, rfl, rfl⟩
    · simp only [MemRegion.layout]
      split
      · decide
      · exact hp
    · simp only [MemRegion.layout]
      split
      · decide
      · exact Nat.pos_of_ne_zero hne.1

theorem MemRegion.new_done {size activeSize pageSize lineSize : Nat} {memType hugepageType : Int}
    (h : MemRegion.new size activeSize pageSize lineSize memType hugepageType = .done r) :
    r = .layout size activeSize pageSize lineSize memType hugepageType := by
  rw [MemRegion.new_eq] at h
  split at h
  · cases h
  · cases h
    rfl

theorem MemRegion.new_lineSize {size activeSize pageSize lineSize : Nat}
    {memType hugepageType : Int}
    (h : MemRegion.new size activeSize pageSize lineSize memType hugepageType = .done r) :
    r.lineSize = lineSize := by
  rw [MemRegion.new_done h]
  rfl

theorem MemRegion.WellFormed.pages_le (h : r.WellFormed) :
    r.numActivePages * r.pageSize ≤ r.activeSize := by
  rw [h.pages]
  exact Nat.div_mul_le_self _ _

theorem MemRegion.WellFormed.lines_le (h : r.WellFormed) :
    r.numLinesInPage * r.lineSize ≤ r.pageSize := by
  rw [h.lines]
  exact Nat.div_mul_le_self _ _

theorem MemRegion.WellFormed.pages_lt (h : r.WellFormed) : r.numActivePages < 2 ^ 64 := by
  have ha := h.active_le
  have hs := h.size_lt
  rw [h.pages]
  exact Nat.lt_of_le_of_lt (Nat.div_le_self _ _) (by omega)

theorem MemRegion.WellFormed.lines_lt (h : r.WellFormed) : r.numLinesInPage < 2 ^ 64 := by
  rw [h.lines]
  exact Nat.lt_of_le_of_lt (Nat.div_le_self _ _) h.page_lt

/-- The offset of a line of a page. -/
def MemRegion.lineOffset (r : MemRegion) (page line : Nat) : Nat :=
  page * r.pageSize + line * r.lineSize

/-- The last slot of the last page lies inside the region. -/
def MemRegion.LastSlotFits (r : MemRegion) : Prop :=
  r.lineOffset (r.numActivePages - 1) (r.numLinesInPage - 1) + 8 ≤ r.size

instance (r : MemRegion) : Decidable r.LastSlotFits :=
  inferInstanceAs (Decidable (_ ≤ _))

theorem MemRegion.WellFormed.lastSlotFits (h : r.WellFormed) (h8 : 8 ≤ r.lineSize)
    (hK : 0 < r.numLinesInPage) (hP : 0 < r.numActivePages) : r.LastSlotFits := by
  have hpage : (r.numActivePages - 1 + 1) * r.pageSize ≤ r.activeSize := by
    rw [Nat.sub_add_cancel hP]
    exact h.pages_le
  have hline : (r.numLinesInPage - 1 + 1) * r.lineSize ≤ r.pageSize := by
    rw [Nat.sub_add_cancel hK]
    exact h.lines_le
  have hactive := h.active_le
  rw [Nat.succ_mul] at hpage hline
  simp only [MemRegion.LastSlotFits, MemRegion.lineOffset]
  omega

theorem MemRegion.LastSlotFits.slot (h : r.LastSlotFits) {i j : Nat}
    (hi : i < r.numActivePages) (hj : j < r.numLinesInPage) : r.lineOffset i j + 8 ≤ r.size := by
  have hp : i * r.pageSize ≤ (r.numActivePages - 1) * r.pageSize :=
    Nat.mul_le_mul_right _ (by omega)
  have hl : j * r.lineSize ≤ (r.numLinesInPage - 1) * r.lineSize :=
    Nat.mul_le_mul_right _ (by omega)
  simp only [MemRegion.LastSlotFits, MemRegion.lineOffset] at *
  omega

theorem MemRegion.WellFormed.lines_apart (h : r.WellFormed) (h8 : 8 ≤ r.lineSize)
    {a b p q : Nat} (ha : a < r.numLinesInPage) (hb : b < r.numLinesInPage) (hne : p ≠ q ∨ a ≠ b) :
    Apart (r.lineOffset p a) (r.lineOffset q b) := by
  have hlast : ∀ c < r.numLinesInPage, c * r.lineSize + 8 ≤ r.pageSize := by
    intro c hc
    have hm : (c + 1) * r.lineSize ≤ r.numLinesInPage * r.lineSize :=
      Nat.mul_le_mul_right _ (by omega)
    have hle := h.lines_le
    rw [Nat.succ_mul] at hm
    omega
  have hA := hlast a ha
  have hB := hlast b hb
  simp only [MemRegion.lineOffset]
  rcases Nat.lt_trichotomy p q with hlt | rfl | hgt
  · have hm : (p + 1) * r.pageSize ≤ q * r.pageSize := Nat.mul_le_mul_right _ hlt
    rw [Nat.succ_mul] at hm
    exact .inl (by omega)
  · rcases Apart.of_mul h8 (hne.resolve_left fun hn => hn rfl) with hl | hl
    · exact .inl (by omega)
    · exact .inr (by omega)
  · have hm : (q + 1) * r.pageSize ≤ p * r.pageSize := Nat.mul_le_mul_right _ hgt
    rw [Nat.succ_mul] at hm
    exact .inr (by omega)

/-- The stores of an initializer: the slot of every stop of a tour gets the offset of the next. -/
def MemRegion.storeTour (r : MemRegion) (visit : Nat → Nat) (n : Nat) : Run Fault Memory :=
  Run.loop (fun t m => r.storePointer m (visit t) (visit (t + 1))) n 0 .zeroed

variable {visit : Nat → Nat}

theorem MemRegion.storeTour_succ (n : Nat) : r.storeTour visit (n + 1) =
    r.storeTour visit n >>= fun m => r.storePointer m (visit n) (visit (n + 1)) := by
  rw [MemRegion.storeTour, Run.loop_succ, Nat.zero_add]
  rfl

theorem MemRegion.storePointer_eq (h : o + 8 ≤ r.size) :
    r.storePointer m o target = .done (m.store o target) := if_pos h

theorem MemRegion.storePointer_done (h : r.storePointer m o target = .done m') :
    o + 8 ≤ r.size ∧ m' = m.store o target := by
  rw [MemRegion.storePointer] at h
  split at h
  · next hin =>
    cases h
    exact ⟨hin, rfl⟩
  · cases h

theorem MemRegion.storeTour_eq (h : ∀ t < n, visit t + 8 ≤ r.size) :
    r.storeTour visit n = .done (Memory.tour visit n) := by
  induction n with
  | zero => rfl
  | succ n ih =>
    rw [MemRegion.storeTour_succ, ih fun t ht => h t (by omega), Run.done_bind,
      MemRegion.storePointer_eq (h n (Nat.lt_succ_self n))]
    rfl

theorem MemRegion.storeTour_done (h : r.storeTour visit n = .done m) :
    (∀ t < n, visit t + 8 ≤ r.size) ∧ m = Memory.tour visit n := by
  induction n generalizing m with
  | zero =>
    cases h
    exact ⟨fun t ht => absurd ht (Nat.not_lt_zero t), rfl⟩
  | succ n ih =>
    rw [MemRegion.storeTour_succ] at h
    obtain ⟨m', hm', hstore⟩ := Run.bind_eq_done.1 h
    obtain ⟨hfits, rfl⟩ := ih hm'
    obtain ⟨hin, rfl⟩ := MemRegion.storePointer_done hstore
    refine ⟨fun t ht => ?_, rfl⟩
    rcases Nat.lt_succ_iff_lt_or_eq.1 ht with ht | rfl
    · exact hfits t ht
    · exact hin

theorem MemRegion.storePointer_ne_running : r.storePointer m o target ≠ .running := by
  rw [MemRegion.storePointer]
  split
  · exact nofun
  · exact nofun

theorem MemRegion.storeTour_ne_running : r.storeTour visit n ≠ .running :=
  Run.loop_ne_running (fun _ _ => MemRegion.storePointer_ne_running) n 0 _

end MmMem

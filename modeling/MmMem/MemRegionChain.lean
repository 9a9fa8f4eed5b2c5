import MmMem.MemRegionLayout
import MmMem.RandomSequence

namespace MmMem
open Prog
set_option autoImplicit true

variable {r : MemRegion}

/-- The tour of `pageRandomInit`: page after page, the lines of each in the shuffled order. -/
def MemRegion.pageTour (r : MemRegion) (linesInPage : List Nat) (t : Nat) : Nat :=
  t % (r.numActivePages * r.numLinesInPage) / r.numLinesInPage * r.pageSize +
    linesInPage.getD (t % r.numLinesInPage) 0

theorem MemRegion.pageTour_periodic (r : MemRegion) (linesInPage : List Nat) :
    Function.Periodic (r.pageTour linesInPage) (r.numActivePages * r.numLinesInPage) := by
  intro t
  simp only [MemRegion.pageTour, Nat.add_mod_right, Nat.add_mul_mod_self_right]

theorem tour_index_lt {P K i j : Nat} (hi : i < P) (hj : j < K) : i * K + j < P * K := by
  have hm : (i + 1) * K ≤ P * K := Nat.mul_le_mul_right _ hi
  rw [Nat.succ_mul] at hm
  omega

theorem MemRegion.pageTour_eq (linesInPage : List Nat) {i j : Nat} (hi : i < r.numActivePages)
    (hj : j < r.numLinesInPage) : r.pageTour linesInPage (i * r.numLinesInPage + j) =
      i * r.pageSize + linesInPage.getD j 0 := by
  rw [MemRegion.pageTour, Nat.mod_eq_of_lt (tour_index_lt hi hj), Nat.mul_comm i r.numLinesInPage,
    Nat.mul_add_div (by omega), Nat.div_eq_of_lt hj, Nat.mul_add_mod, Nat.mod_eq_of_lt hj,
    Nat.add_zero]

/-- The line order a shuffle leaves: a bijection that starts at line zero. -/
structure MemRegion.LineOrder (r : MemRegion) (linesInPage : List Nat) (σ : Nat → Nat) :
    Prop where
  length : linesInPage.length = r.numLinesInPage
  line : ∀ j < r.numLinesInPage, σ j < r.numLinesInPage ∧ linesInPage.getD j 0 = σ j * r.lineSize
  inj : ∀ i < r.numLinesInPage, ∀ j < r.numLinesInPage, σ i = σ j → i = j
  surj : ∀ k < r.numLinesInPage, ∃ j < r.numLinesInPage, σ j = k
  first : σ 0 = 0

theorem MemRegion.LineOrder.of_shuffled {linesInPage : List Nat} (hl : 0 < r.lineSize)
    (hK : 0 < r.numLinesInPage)
    (h : Shuffled r.numLinesInPage r.numLinesInPage r.lineSize linesInPage)
    (h0 : linesInPage[0]? = some 0) : ∃ σ, r.LineOrder linesInPage σ := by
  obtain ⟨σ, hσ, hinj, hsurj⟩ := h.order hl
  refine ⟨σ, h.length, hσ, hinj, hsurj, ?_⟩
  have hz := (hσ 0 hK).2
  rw [List.getD_eq_getElem?_getD, h0, Option.getD_some] at hz
  exact (Nat.mul_eq_zero.1 hz.symm).resolve_right (Nat.pos_iff_ne_zero.1 hl)

variable {linesInPage pages : List Nat} {σ : Nat → Nat}

theorem MemRegion.LineOrder.tour (h : r.LineOrder linesInPage σ) {i j : Nat}
    (hi : i < r.numActivePages) (hj : j < r.numLinesInPage) :
    r.pageTour linesInPage (i * r.numLinesInPage + j) = r.lineOffset i (σ j) := by
  rw [MemRegion.pageTour_eq linesInPage hi hj, (h.line j hj).2, MemRegion.lineOffset]

/-- Every stop of the tour, by the page and the place within the page. -/
theorem tour_index {P K t : Nat} (ht : t < P * K) :
    t / K < P ∧ t % K < K ∧ t = t / K * K + t % K := by
  have hK : 0 < K := Nat.pos_of_ne_zero (by rintro rfl; omega)
  exact ⟨Nat.div_lt_of_lt_mul (by rwa [Nat.mul_comm]), Nat.mod_lt t hK, (Nat.div_add_mod' t K).symm⟩

theorem MemRegion.LineOrder.tour_apart (h : r.LineOrder linesInPage σ) (hr : r.WellFormed)
    (h8 : 8 ≤ r.lineSize) {t k : Nat} (ht : t < r.numActivePages * r.numLinesInPage)
    (hk : k < r.numActivePages * r.numLinesInPage) (hne : t ≠ k) :
    Apart (r.pageTour linesInPage t) (r.pageTour linesInPage k) := by
  obtain ⟨ht1, ht2, hte⟩ := tour_index ht
  obtain ⟨hk1, hk2, hke⟩ := tour_index hk
  have hsplit : t / r.numLinesInPage ≠ k / r.numLinesInPage ∨
      σ (t % r.numLinesInPage) ≠ σ (k % r.numLinesInPage) := by
    by_contra hc
    simp only [not_or, not_not] at hc
    have hmod := h.inj _ ht2 _ hk2 hc.2
    exact hne (by rw [hte, hke, hc.1, hmod])
  have hap := hr.lines_apart h8 (h.line _ ht2).1 (h.line _ hk2).1 hsplit
  rwa [← h.tour ht1 ht2, ← h.tour hk1 hk2, ← hte, ← hke] at hap

theorem MemRegion.LineOrder.tour_zero (h : r.LineOrder linesInPage σ) (hP : 0 < r.numActivePages)
    (hK : 0 < r.numLinesInPage) : r.pageTour linesInPage 0 = 0 := by
  have ht := h.tour hP hK
  rwa [h.first, Nat.zero_mul, Nat.add_zero, MemRegion.lineOffset, Nat.zero_mul, Nat.zero_mul] at ht

theorem MemRegion.LineOrder.tour_fits (h : r.LineOrder linesInPage σ) (hfit : r.LastSlotFits) :
    ∀ t < r.numActivePages * r.numLinesInPage, r.pageTour linesInPage t + 8 ≤ r.size := by
  intro t ht
  obtain ⟨hi, hj, he⟩ := tour_index ht
  rw [he, h.tour hi hj]
  exact hfit.slot hi (h.line _ hj).1

theorem MemRegion.LineOrder.offset_lt (h : r.LineOrder linesInPage σ) (hr : r.WellFormed)
    {i j : Nat}
    (hi : i < r.numActivePages) (hj : j < r.numLinesInPage) :
    i * r.pageSize + linesInPage.getD j 0 < 2 ^ 64 := by
  have hpage : (i + 1) * r.pageSize ≤ r.numActivePages * r.pageSize := Nat.mul_le_mul_right _ hi
  have hline : (σ j + 1) * r.lineSize ≤ r.numLinesInPage * r.lineSize :=
    Nat.mul_le_mul_right _ (h.line j hj).1
  have hpages := hr.pages_le
  have hlines := hr.lines_le
  have hactive := hr.active_le
  have hsize := hr.size_lt
  have hpos := hr.line_pos
  rw [Nat.succ_mul] at hpage hline
  rw [(h.line j hj).2]
  omega

/-- The offset one store of a page's lines puts into the slot of the line before. -/
theorem MemRegion.pageTour_next (linesInPage : List Nat) {i : Nat} (hi : i < r.numActivePages)
    (hK : 0 < r.numLinesInPage) (hPlt : r.numActivePages < 2 ^ 64) :
    ∃ i' < r.numActivePages, (if i = r.numActivePages - 1 then 0 else u64 (i + 1)) = i' ∧
      r.pageTour linesInPage ((i + 1) * r.numLinesInPage) =
        i' * r.pageSize + linesInPage.getD 0 0 := by
  by_cases hlast : i = r.numActivePages - 1
  · have hwrap : i + 1 = r.numActivePages := by omega
    have hfirst := MemRegion.pageTour_eq linesInPage (show 0 < r.numActivePages by omega) hK
    refine ⟨0, by omega, if_pos hlast, ?_⟩
    rw [Nat.zero_mul, Nat.zero_add] at hfirst
    rw [hwrap, ← Nat.zero_add (r.numActivePages * r.numLinesInPage),
      r.pageTour_periodic linesInPage 0, hfirst]
  · have hnext := MemRegion.pageTour_eq linesInPage (show i + 1 < r.numActivePages by omega) hK
    exact ⟨i + 1, by omega, by rw [if_neg hlast, u64_eq (by omega)], hnext⟩

theorem MemRegion.LineOrder.linkPage_eq (h : r.LineOrder linesInPage σ) (hr : r.WellFormed)
    (hK : 0 < r.numLinesInPage) {i : Nat} (hi : i < r.numActivePages)
    (hpages : ∀ i < r.numActivePages, vectorAt pages i = .done (i * r.pageSize)) (m : Memory) :
    r.linkPage pages linesInPage i m =
      Run.loop (fun t m => r.storePointer m (r.pageTour linesInPage t)
        (r.pageTour linesInPage (t + 1))) r.numLinesInPage (i * r.numLinesInPage) m := by
  have hlen := h.length
  have hKlt := hr.lines_lt
  have hPlt := hr.pages_lt
  have hline : ∀ j < r.numLinesInPage, vectorAt linesInPage j = .done (linesInPage.getD j 0) :=
    fun j hj => vectorAt_getD (by omega)
  obtain ⟨k, hk⟩ : ∃ k, r.numLinesInPage = k + 1 := ⟨r.numLinesInPage - 1, by omega⟩
  have hpred : u64Sub r.numLinesInPage 1 = k := by rw [u64Sub_eq hK hKlt, hk, Nat.add_sub_cancel]
  rw [MemRegion.linkPage, hpred, u64Sub_eq (by omega) hPlt]
  have hsplit := Run.loop_succ (fun t m => r.storePointer m (r.pageTour linesInPage t)
    (r.pageTour linesInPage (t + 1))) k (i * r.numLinesInPage) m
  rw [← hk] at hsplit
  rw [hsplit]
  apply Run.bind_congr
  · apply Run.loop_congr
    intro j hj m
    simp only [Nat.zero_add]
    rw [Nat.add_assoc, MemRegion.pageTour_eq _ hi (by omega), MemRegion.pageTour_eq _ hi (by omega),
      hpages i hi, hline j (by omega), u64_eq (show j + 1 < 2 ^ 64 by omega),
      hline (j + 1) (by omega)]
    simp only [Run.done_bind, u64_eq (h.offset_lt hr hi (j := j) (by omega)),
      u64_eq (h.offset_lt hr hi (j := j + 1) (by omega))]
  · intro m
    obtain ⟨i', hi', hidx, htour⟩ := MemRegion.pageTour_next linesInPage hi hK hPlt
    have hnext : i * r.numLinesInPage + k + 1 = (i + 1) * r.numLinesInPage := by
      rw [Nat.succ_mul]
      omega
    rw [hnext, htour, MemRegion.pageTour_eq _ hi (by omega), hidx]
    simp only [hpages i hi, hpages i' hi', hline 0 hK, hline k (by omega), Run.done_bind,
       u64_eq (h.offset_lt hr hi (j := k) (by omega)),
      u64_eq (h.offset_lt hr hi' (j := 0) hK)]

theorem MemRegion.pageRandomInit_eq (hr : r.WellFormed) (rand : Nat → Nat) (fuel : Nat) :
    r.pageRandomInit rand fuel .zeroed = randomizeSequence rand fuel
      (List.replicate r.numLinesInPage 0) r.numLinesInPage r.lineSize false >>= fun linesInPage =>
        Run.loop (r.linkPage ((List.range r.numActivePages).map (· * r.pageSize)) linesInPage)
          r.numActivePages 0 .zeroed := by
  have hpages := hr.pages_le
  have hactive := hr.active_le
  have hsize := hr.size_lt
  rw [MemRegion.pageRandomInit, randomizeSequence_inOrder (by omega)]
  rfl

theorem MemRegion.LineOrder.linkPages_eq (h : r.LineOrder linesInPage σ) (hr : r.WellFormed)
    (hK : 0 < r.numLinesInPage) :
    Run.loop (r.linkPage ((List.range r.numActivePages).map (· * r.pageSize)) linesInPage)
        r.numActivePages 0 .zeroed =
      r.storeTour (r.pageTour linesInPage) (r.numActivePages * r.numLinesInPage) := by
  apply Run.loop_mul
  intro i hi m
  apply h.linkPage_eq hr hK hi
  intro i hi
  rw [vectorAt_eq (by rw [List.length_map, List.length_range]; exact hi), List.getElem_map,
    List.getElem_range]

/-- Either the shuffle is still running, or its line order is stored as a tour. -/
theorem MemRegion.pageRandomInit_tour (hr : r.WellFormed) (hK : 0 < r.numLinesInPage)
    (rand : Nat → Nat) (fuel : Nat) :
    (randomizeSequence rand fuel (List.replicate r.numLinesInPage 0) r.numLinesInPage r.lineSize
        false = .running ∧ r.pageRandomInit rand fuel .zeroed = .running) ∨
      ∃ linesInPage σ, r.LineOrder linesInPage σ ∧ r.pageRandomInit rand fuel .zeroed =
        r.storeTour (r.pageTour linesInPage) (r.numActivePages * r.numLinesInPage) := by
  have hlines := hr.lines_le
  have hpage := hr.page_lt
  have hsafe := randomizeSequence_safe rand fuel r.lineSize
    (List.length_replicate (a := 0)) (Nat.le_refl _) hK hr.lines_lt (by omega)
  rw [MemRegion.pageRandomInit_eq hr]
  by_cases hrun : randomizeSequence rand fuel (List.replicate r.numLinesInPage 0) r.numLinesInPage
      r.lineSize false = .running
  · rw [hrun]
    exact .inl ⟨rfl, rfl⟩
  · obtain ⟨linesInPage, hdone, hshuf, h0⟩ := hsafe.exists_done hrun
    obtain ⟨σ, hσ⟩ := MemRegion.LineOrder.of_shuffled hr.line_pos hK hshuf h0
    rw [hdone, Run.done_bind, hσ.linkPages_eq hr hK]
    exact .inr ⟨linesInPage, σ, hσ, rfl⟩

/-- One closed chain over the lines of the active pages, walked page by page. -/
structure MemRegion.PageChain (r : MemRegion) (m : Memory) (visit : Nat → Nat) : Prop where
  follows : ∀ n, m.follow 0 n = some (visit n)
  visitsOnce : ∀ i < r.numActivePages, ∀ j < r.numLinesInPage,
    ∃! n, n < r.numActivePages * r.numLinesInPage ∧ visit n = r.lineOffset i j
  closes : visit (r.numActivePages * r.numLinesInPage) = 0
  notEarlier : ∀ n, 0 < n → n < r.numActivePages * r.numLinesInPage → visit n ≠ 0
  pageByPage : ∀ n < r.numActivePages * r.numLinesInPage,
    ∃ j < r.numLinesInPage, visit n = r.lineOffset (n / r.numLinesInPage) j
  entersFirstLine : ∀ i < r.numActivePages, visit (i * r.numLinesInPage) = r.lineOffset i 0
  footprint : ∀ b, m.Written b → ∃ i < r.numActivePages, ∃ j < r.numLinesInPage,
    r.lineOffset i j ≤ b ∧ b < r.lineOffset i j + 8

theorem MemRegion.LineOrder.pageChain (h : r.LineOrder linesInPage σ) (hr : r.WellFormed)
    (h8 : 8 ≤ r.lineSize) (hP : 0 < r.numActivePages) (hK : 0 < r.numLinesInPage)
    (hm : Linked (r.pageTour linesInPage) (r.numActivePages * r.numLinesInPage) m) :
    r.PageChain m (r.pageTour linesInPage) := by
  have hn : 0 < r.numActivePages * r.numLinesInPage := Nat.mul_pos hP hK
  have hstart : r.pageTour linesInPage 0 = 0 := h.tour_zero hP hK
  have hinj : ∀ t < r.numActivePages * r.numLinesInPage,
      ∀ k < r.numActivePages * r.numLinesInPage,
      r.pageTour linesInPage t = r.pageTour linesInPage k → t = k := by
    intro t ht k hk he
    by_contra hne
    rcases h.tour_apart hr h8 ht hk hne with hap | hap <;> omega
  refine ⟨fun n => ?_, fun i hi j hj => ?_, ?_, fun n hpos hlt he => ?_, fun n hn => ?_,
    fun i hi => ?_, fun b hb => ?_⟩
  · have hf := hm.follow hn (r.pageTour_periodic linesInPage) n
    rwa [hstart] at hf
  · obtain ⟨k, hk, rfl⟩ := h.surj j hj
    have hlt := tour_index_lt hi hk
    refine ⟨i * r.numLinesInPage + k, ⟨hlt, h.tour hi hk⟩, fun n ⟨hnlt, hne⟩ => ?_⟩
    exact hinj n hnlt _ hlt (hne.trans (h.tour hi hk).symm)
  · have hper := r.pageTour_periodic linesInPage 0
    rwa [Nat.zero_add, hstart] at hper
  · have := hinj n hlt 0 hn (he.trans hstart.symm)
    omega
  · obtain ⟨hi, hj, hne⟩ := tour_index hn
    refine ⟨σ (n % r.numLinesInPage), (h.line _ hj).1, ?_⟩
    have ht := h.tour hi hj
    rwa [← hne] at ht
  · have ht := h.tour hi hK
    rwa [Nat.add_zero, h.first] at ht
  · obtain ⟨o, ho, hb⟩ := hb
    obtain ⟨t, ht, rfl⟩ := hm.stores o ho
    obtain ⟨hi, hj, hte⟩ := tour_index ht
    refine ⟨t / r.numLinesInPage, hi, σ (t % r.numLinesInPage), (h.line _ hj).1, ?_⟩
    rwa [← h.tour hi hj, ← hte]

/-- `page_random_init` builds one closed pointer chain with chunk locality. -/
theorem page_random_init_closed_chain (size activeSize pageSize lineSize : UInt64)
    (memType hugepageType : Int) (rand : Nat → Nat) (fuel : Nat) (r : MemRegion) (m : Memory)
    (hactive : activeSize ≤ size) (hline : 8 ≤ lineSize)
    (hnew : MemRegion.new size.toNat activeSize.toNat pageSize.toNat lineSize.toNat
      memType hugepageType = .done r)
    (hK : 1 ≤ r.numLinesInPage) (hP : 1 ≤ r.numActivePages)
    (hret : r.pageRandomInit rand fuel .zeroed = .done m) :
    ∃ visit, r.PageChain m visit := by
  have hr := MemRegion.WellFormed.of_new size.toNat_lt
    (UInt64.le_iff_toNat_le.1 hactive) pageSize.toNat_lt hnew
  have h8 : 8 ≤ r.lineSize := by
    rw [MemRegion.new_lineSize hnew]
    exact UInt64.le_iff_toNat_le.1 hline
  rcases MemRegion.pageRandomInit_tour hr hK rand fuel with ⟨-, hrun⟩ | ⟨linesInPage, σ, hσ, htour⟩
  · rw [hret] at hrun
    cases hrun
  · rw [htour] at hret
    obtain ⟨-, rfl⟩ := MemRegion.storeTour_done hret
    have hlinked : Linked (r.pageTour linesInPage) _ (Memory.tour _ _) :=
      .tour fun t ht k hk hne => hσ.tour_apart hr h8 ht hk hne
    exact ⟨_, hσ.pageChain hr h8 hP hK hlinked⟩

theorem page_random_init_closed_chain_small :
    ∃ m visit, (MemRegion.layout 32 32 16 8 0 0).pageRandomInit (fun _ => 0) 4 .zeroed = .done m ∧
      (MemRegion.layout 32 32 16 8 0 0).PageChain m visit := by
  obtain ⟨m, hm⟩ := Run.exists_done (x := (MemRegion.layout 32 32 16 8 0 0).pageRandomInit
    (fun _ => 0) 4 .zeroed) (by decide +kernel)
  obtain ⟨visit, h⟩ := page_random_init_closed_chain 32 32 16 8 0 0 (fun _ => 0) 4
    (.layout 32 32 16 8 0 0) m (by decide) (by decide) rfl (by decide) (by decide) hm
  exact ⟨m, visit, hm, h⟩

end MmMem

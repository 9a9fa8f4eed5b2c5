import MmMem.LatencyPass

namespace MmMem
open Prog
set_option autoImplicit true

variable {r : MemRegion} {m : Memory} {n : Nat}

/-- The initializer does not fault, and its chain comes by the offsets of `S` when it returns. -/
def Covers (S : Set Nat) (x : Run Fault Memory) : Prop :=
  Run.Safe (fun m => ∀ o, m.Reachable 0 o ↔ o ∈ S) x

/-- All three access patterns come by the same lines, whatever the random stream. -/
def MemRegion.SameFootprint (r : MemRegion) : Prop :=
  ∃ S : Set Nat, (∀ fuel, Covers S (r.strideInit fuel .zeroed)) ∧
    (∀ rand fuel, Covers S (r.pageRandomInit rand fuel .zeroed)) ∧
    ∀ rand fuel, Covers S (r.allRandomInit rand fuel .zeroed)

/-- The first `n` lines of a region. -/
def MemRegion.firstLines (r : MemRegion) (n : Nat) : Set Nat := {o | ∃ k < n, o = k * r.lineSize}

theorem MemRegion.firstLines_inj (hpos : 0 < r.lineSize) (hn : 0 < n) (hk : 0 < k)
    (h : r.firstLines n = r.firstLines k) : n = k := by
  have hle : ∀ a b, 0 < a → r.firstLines a = r.firstLines b → a ≤ b := by
    intro a b ha hab
    have hlast : (a - 1) * r.lineSize ∈ r.firstLines b := by
      rw [← hab]
      exact ⟨a - 1, by omega, rfl⟩
    obtain ⟨j, hj, he⟩ := hlast
    have hline := Nat.eq_of_mul_eq_mul_right hpos he
    omega
  exact Nat.le_antisymm (hle n k hn h) (hle k n hk h.symm)

theorem MemRegion.Tours.reachable_iff {visit : Nat → Nat} (h : r.Tours m visit n) (o : Nat) :
    m.Reachable 0 o ↔ ∃ t < n, visit t = o := by
  have hreach := h.cycle.reachable_iff o
  rwa [h.start] at hreach

theorem Arranges.reachable_iff {σ : Nat → Nat} (hσ : Arranges n σ)
    (h : r.Tours m (r.lineTour σ n) n) (o : Nat) : m.Reachable 0 o ↔ o ∈ r.firstLines n := by
  rw [h.reachable_iff]
  constructor
  · rintro ⟨t, ht, rfl⟩
    exact ⟨σ t, hσ.lt t ht, MemRegion.lineTour_eq ht⟩
  · rintro ⟨k, hk, rfl⟩
    obtain ⟨t, ht, rfl⟩ := hσ.surj k hk
    exact ⟨t, ht, MemRegion.lineTour_eq ht⟩

theorem MemRegion.LineOrder.reachable_iff {linesInPage : List Nat} {σ : Nat → Nat}
    (hσ : r.LineOrder linesInPage σ)
    (h : r.Tours m (r.pageTour linesInPage) (r.numActivePages * r.numLinesInPage)) (o : Nat) :
    m.Reachable 0 o ↔
      ∃ i < r.numActivePages, ∃ j < r.numLinesInPage, o = r.lineOffset i j := by
  rw [h.reachable_iff]
  constructor
  · rintro ⟨t, ht, rfl⟩
    obtain ⟨hi, hj, hte⟩ := tour_index ht
    refine ⟨_, hi, _, (hσ.line _ hj).1, ?_⟩
    rw [← hσ.tour hi hj, ← hte]
  · rintro ⟨i, hi, j, hj, rfl⟩
    obtain ⟨k, hk, rfl⟩ := hσ.surj j hj
    exact ⟨_, tour_index_lt hi hk, hσ.tour hi hk⟩

/-- The chunks divide the region and the lines divide the chunks. -/
def MemRegion.Tiled (r : MemRegion) : Prop := r.pageSize ∣ r.activeSize ∧ r.lineSize ∣ r.pageSize

/-- The stride reaches as many lines as the chunks hold exactly if nothing is left over. -/
theorem MemRegion.Paged.tiled_iff (h : r.Paged) :
    r.Tiled ↔ r.numStrides = r.numActivePages * r.numLinesInPage := by
  have hpos := h.wellFormed.line_pos
  have hline := h.line_le
  have hpages := h.wellFormed.pages_le
  have hlines : r.numActivePages * (r.numLinesInPage * r.lineSize) ≤
      r.numActivePages * r.pageSize := Nat.mul_le_mul_left _ h.wellFormed.lines_le
  constructor
  · rintro ⟨hpage, hdvd⟩
    have hpageEq : r.numActivePages * r.pageSize = r.activeSize := by
      rw [h.wellFormed.pages]
      exact Nat.div_mul_cancel hpage
    have hlineEq : r.numLinesInPage * r.lineSize = r.pageSize := by
      rw [h.wellFormed.lines]
      exact Nat.div_mul_cancel hdvd
    rw [← hlineEq, ← Nat.mul_assoc] at hpageEq
    obtain ⟨k, hk⟩ : ∃ k, r.numActivePages * r.numLinesInPage = k + 1 :=
      ⟨r.numActivePages * r.numLinesInPage - 1, by
        have hprod := Nat.mul_pos h.pages h.lines
        omega⟩
    rw [hk, Nat.succ_mul] at hpageEq
    have hprev : r.activeSize - 1 = k * r.lineSize + (r.lineSize - 1) := by omega
    rw [MemRegion.numStrides, hk, hprev, Nat.mul_comm k, Nat.mul_add_div hpos,
      Nat.div_eq_of_lt (by omega)]
  · intro hcount
    have hcover : r.activeSize - 1 < r.numStrides * r.lineSize := by
      rw [MemRegion.numStrides, Nat.mul_comm]
      exact Nat.lt_mul_div_succ _ hpos
    rw [hcount, Nat.mul_assoc] at hcover
    have hpageEq : r.numActivePages * r.pageSize = r.activeSize := by omega
    have hlineEq : r.numActivePages * (r.numLinesInPage * r.lineSize) =
        r.numActivePages * r.pageSize := by omega
    exact ⟨⟨_, (Nat.mul_comm _ _).trans hpageEq |>.symm⟩,
      ⟨_, (Nat.mul_comm _ _).trans (Nat.eq_of_mul_eq_mul_left h.pages hlineEq) |>.symm⟩⟩

theorem MemRegion.Tiled.line_eq (h : r.Tiled) (hr : r.WellFormed) (i j : Nat) :
    r.lineOffset i j = (i * r.numLinesInPage + j) * r.lineSize := by
  have hlineEq : r.numLinesInPage * r.lineSize = r.pageSize := by
    rw [hr.lines]
    exact Nat.div_mul_cancel h.2
  rw [MemRegion.lineOffset, ← hlineEq, Nat.add_mul, Nat.mul_assoc]

theorem MemRegion.Tiled.pages_lines (h : r.Tiled) (hr : r.WellFormed) :
    {o | ∃ i < r.numActivePages, ∃ j < r.numLinesInPage, o = r.lineOffset i j} =
      r.firstLines (r.numActivePages * r.numLinesInPage) := by
  ext o
  constructor
  · rintro ⟨i, hi, j, hj, rfl⟩
    exact ⟨_, tour_index_lt hi hj, h.line_eq hr i j⟩
  · rintro ⟨k, hk, rfl⟩
    obtain ⟨hi, hj, hke⟩ := tour_index hk
    refine ⟨_, hi, _, hj, ?_⟩
    rw [h.line_eq hr, ← hke]

theorem MemRegion.Paged.last_fits (h : r.Paged) :
    (r.numActivePages * r.numLinesInPage - 1) * r.lineSize + 8 ≤ r.size := by
  have hactive := h.wellFormed.activeLines_le
  have hle := h.wellFormed.active_le
  have h8 := h.line
  have hprod := Nat.mul_pos h.pages h.lines
  rw [h.wellFormed.numActiveLines_eq] at hactive
  obtain ⟨k, hk⟩ : ∃ k, r.numActivePages * r.numLinesInPage = k + 1 :=
    ⟨r.numActivePages * r.numLinesInPage - 1, by omega⟩
  rw [hk, Nat.succ_mul] at hactive
  rw [hk, Nat.add_sub_cancel]
  omega

theorem MemRegion.Tiled.strideInit_covers (h : r.Tiled) (hp : r.Paged) (hsize : r.size < 2 ^ 63)
    (fuel : Nat) :
    Covers (r.firstLines (r.numActivePages * r.numLinesInPage)) (r.strideInit fuel .zeroed) := by
  have hprod := Nat.mul_pos hp.pages hp.lines
  have harr := Arranges.id (r.numActivePages * r.numLinesInPage)
  have hslots := (harr.lineTour_fits hprod).2 hp.last_fits
  rw [Covers, MemRegion.strideInit_tour hp.wellFormed.line_pos (hp.active_add_line hsize),
    hp.tiled_iff.1 h]
  split
  · have hstore := MemRegion.storeTour_eq hslots
    rw [hstore]
    exact .done (harr.reachable_iff (harr.tours hp.line hprod hstore))
  · rw [MemRegion.storeTour_eq fun t ht => hslots t (by omega)]
    exact .running

theorem MemRegion.Tiled.pageRandomInit_covers (h : r.Tiled) (hp : r.Paged) (rand : Nat → Nat)
    (fuel : Nat) : Covers (r.firstLines (r.numActivePages * r.numLinesInPage))
      (r.pageRandomInit rand fuel .zeroed) := by
  have hr := hp.wellFormed
  rw [Covers]
  rcases MemRegion.pageRandomInit_tour hr hp.lines rand fuel with
    ⟨-, hrun⟩ | ⟨linesInPage, σ, hσ, htour⟩
  · rw [hrun]
    exact .running
  · have hstore := MemRegion.storeTour_eq
      (hσ.tour_fits (hr.lastSlotFits hp.line hp.lines hp.pages))
    rw [htour, hstore]
    refine .done fun o => ?_
    rw [hσ.reachable_iff (hσ.tours hr hp.line hp.pages hp.lines hstore), ← h.pages_lines hr]
    rfl

theorem MemRegion.Paged.allRandomInit_covers (hp : r.Paged) (rand : Nat → Nat) (fuel : Nat) :
    Covers (r.firstLines (r.numActivePages * r.numLinesInPage))
      (r.allRandomInit rand fuel .zeroed) := by
  have hlines := hp.wellFormed.numActiveLines_eq
  have hM : 0 < r.numActiveLines := hlines ▸ Nat.mul_pos hp.pages hp.lines
  rw [Covers, ← hlines]
  rcases MemRegion.allRandomInit_tour hp.wellFormed hM rand fuel with
    ⟨-, hrun⟩ | ⟨σ, hσ, htour⟩
  · rw [hrun]
    exact .running
  · have hstore := MemRegion.storeTour_eq ((hσ.lineTour_fits hM).2 (hlines ▸ hp.last_fits))
    rw [htour, hstore]
    exact .done (hσ.reachable_iff (hσ.tours hp.line hM hstore))

theorem MemRegion.Tiled.sameFootprint (h : r.Tiled) (hp : r.Paged) (hsize : r.size < 2 ^ 63) :
    r.SameFootprint :=
  ⟨r.firstLines (r.numActivePages * r.numLinesInPage), h.strideInit_covers hp hsize,
    h.pageRandomInit_covers hp, hp.allRandomInit_covers⟩

/-- What an initializer that has not run out of fuel covers is what its chain comes by. -/
theorem Covers.exists_done {S : Set Nat} {x : Run Fault Memory} (h : Covers S x)
    (hx : x ≠ .running) : ∃ m, x = .done m ∧ ∀ o, m.Reachable 0 o ↔ o ∈ S :=
  Run.Safe.exists_done h hx

theorem MemRegion.SameFootprint.tiled (h : r.SameFootprint) (hp : r.Paged)
    (hsize : r.size < 2 ^ 63) : r.Tiled := by
  have hr := hp.wellFormed
  have hsum := hp.active_add_line hsize
  have hprod := Nat.mul_pos hp.pages hp.lines
  have hlines := hr.numActiveLines_eq
  have hM : 0 < r.numActiveLines := hlines ▸ hprod
  have hquiet : ∀ accessPattern,
      r.initByPattern accessPattern quietRand (2 ^ 64) .zeroed ≠ .running :=
    fun accessPattern => hr.initByPattern_quiet hsize hsum accessPattern (Nat.le_refl _)
  obtain ⟨S, hstride, -, hall⟩ := h
  obtain ⟨m, hm, hreach⟩ := (hstride (2 ^ 64)).exists_done (hquiet 0)
  obtain ⟨m', hm', hreach'⟩ := (hall quietRand (2 ^ 64)).exists_done (hquiet 2)
  obtain ⟨σ, hσ, htours⟩ := MemRegion.allRandomInit_tours hr hp.line hM hm'
  have hsame : r.firstLines r.numStrides = r.firstLines r.numActiveLines := by
    ext o
    rw [← (Arranges.id _).reachable_iff (MemRegion.strideInit_tours hp.line hsum hm), hreach,
      ← hreach', hσ.reachable_iff htours]
  rw [hp.tiled_iff, ← hlines]
  exact MemRegion.firstLines_inj hr.line_pos (Nat.succ_pos _) hM hsame

/-- The access patterns differ in their order alone exactly if the chunks divide the region and
the lines divide the chunks. -/
theorem access_patterns_share_footprint (size pageSize lineSize : UInt64)
    (memType hugepageType : Int) (r : MemRegion) (hsize : size.toNat < 2 ^ 63)
    (hregion : pageSize ≤ size) (hchunk : lineSize ≤ pageSize) (hline : 8 ≤ lineSize)
    (hnew : MemRegion.new size.toNat size.toNat pageSize.toNat lineSize.toNat
      memType hugepageType = .done r) :
    r.SameFootprint ↔ pageSize.toNat ∣ size.toNat ∧ lineSize.toNat ∣ pageSize.toNat := by
  rw [UInt64.le_iff_toNat_le] at hregion hchunk
  have h8 : 8 ≤ lineSize.toNat := UInt64.le_iff_toNat_le.1 hline
  have hlayout := MemRegion.new_done hnew
  have hpage : r.pageSize = pageSize.toNat := by
    rw [hlayout]
    exact if_neg (Nat.not_lt.2 hregion)
  have hactive : r.activeSize = size.toNat := by rw [hlayout]; rfl
  have hsizeEq : r.size = size.toNat := by rw [hlayout]; rfl
  have hlineEq := MemRegion.new_lineSize hnew
  have hr : r.WellFormed := .of_new size.toNat_lt (Nat.le_refl _) pageSize.toNat_lt hnew
  have hp : r.Paged := by
    refine ⟨hr, by omega, ?_, ?_⟩
    · rw [hr.pages, hactive, hpage]
      exact Nat.div_pos hregion (by omega)
    · rw [hr.lines, hpage, hlineEq]
      exact Nat.div_pos hchunk (by omega)
  have hlt : r.size < 2 ^ 63 := by rw [hsizeEq]; exact hsize
  rw [← hpage, ← hactive, ← hlineEq]
  exact ⟨fun h => h.tiled hp hlt, fun h => MemRegion.Tiled.sameFootprint h hp hlt⟩

theorem access_patterns_share_footprint_small : (MemRegion.layout 32 32 16 8 0 0).SameFootprint :=
  (access_patterns_share_footprint 32 16 8 0 0 (.layout 32 32 16 8 0 0) (by decide) (by decide)
    (by decide) (by decide) rfl).2 (by decide)

/-- The stride goes on behind the last whole chunk of 2 KiB. -/
theorem footprints_differ :
    MemRegion.new 3072 3072 2048 128 0 0 = .done (.layout 3072 3072 2048 128 0 0) ∧
      ¬ (MemRegion.layout 3072 3072 2048 128 0 0).SameFootprint := by
  have hnew : MemRegion.new 3072 3072 2048 128 0 0 = .done (.layout 3072 3072 2048 128 0 0) := rfl
  have hpaged : (MemRegion.layout 3072 3072 2048 128 0 0).Paged :=
    ⟨.of_new (by decide) (Nat.le_refl _) (by decide) hnew, by decide, by decide, by decide⟩
  exact ⟨hnew, fun h => absurd (h.tiled hpaged (by decide)).1 (by decide)⟩

end MmMem

import MmMem.Library.BoundedRun

namespace Prog
set_option autoImplicit true

/-- Rounds over a list of items; what a round hands back goes into the next one. -/
def rounds (step : Nat → β → ι → Run ε (ρ × β)) : Nat → β → List ι → Run ε (List ρ)
  | _, _, [] => .done []
  | k, b, item :: items => do
    let (result, b) ← step k b item
    let results ← rounds step (k + 1) b items
    return result :: results

/-- What goes into each of the rounds and what comes out, in a run that is done. -/
structure RoundTrace (step : Nat → β → ι → Run ε (ρ × β)) (k : Nat) (items : List ι)
    (fed : Nat → β) (results : List ρ) : Prop where
  length : results.length = items.length
  round : ∀ (i : Nat) (item : ι), items[i]? = some item → ∃ result, results[i]? = some result ∧
    step (k + i) (fed i) item = .done (result, fed (i + 1))

variable {step : Nat → β → ι → Run ε (ρ × β)}

theorem rounds_trace {items : List ι} (h : rounds step k b items = .done results) :
    ∃ fed, fed 0 = b ∧ RoundTrace step k items fed results := by
  induction items generalizing k b results with
  | nil =>
    cases h
    refine ⟨fun _ => b, rfl, rfl, fun i item hi => ?_⟩
    cases hi
  | cons item items ih =>
    obtain ⟨⟨result, b'⟩, hstep, h⟩ := Run.bind_eq_done.1 h
    obtain ⟨later, hlater, h⟩ := Run.bind_eq_done.1 h
    cases h
    obtain ⟨fed, hfed, htrace⟩ := ih hlater
    refine ⟨fun i => if i = 0 then b else fed (i - 1), rfl, ?_, fun i x hi => ?_⟩
    · rw [List.length_cons, List.length_cons, htrace.length]
    · cases i with
      | zero =>
        cases hi
        refine ⟨result, rfl, ?_⟩
        simpa [hfed] using hstep
      | succ i =>
        obtain ⟨y, hy, hround⟩ := htrace.round i x hi
        refine ⟨y, hy, ?_⟩
        have hk : k + (i + 1) = k + 1 + i := by omega
        simpa [hk] using hround

theorem RoundTrace.round_at {items : List ι} (h : RoundTrace step 0 items fed results)
    (hi : i < items.length) : ∃ result, results[i]? = some result ∧
      step i (fed i) items[i] = .done (result, fed (i + 1)) := by
  obtain ⟨result, hget, hround⟩ := h.round i _ (List.getElem?_eq_getElem hi)
  rw [Nat.zero_add] at hround
  exact ⟨result, hget, hround⟩

/-- What every round keeps of its input holds of the input of each. -/
theorem RoundTrace.invariant {items : List ι} {I : β → Prop}
    (h : RoundTrace step k items fed results) (h0 : I (fed 0))
    (hI : ∀ k b item result b', I b → step k b item = .done (result, b') → I b')
    (hi : i ≤ items.length) : I (fed i) := by
  induction i with
  | zero => exact h0
  | succ i ih =>
    obtain ⟨result, -, hround⟩ := h.round i _ (List.getElem?_eq_getElem hi)
    exact hI _ _ _ _ _ (ih (Nat.le_of_succ_le hi)) hround

theorem exists_rounds {items : List ι} {I : β → Prop} (hb : I b)
    (hstep : ∀ i < items.length, ∀ b item, I b →
      ∃ result b', step (k + i) b item = .done (result, b') ∧ I b') :
    ∃ results, rounds step k b items = .done results := by
  induction items generalizing k b with
  | nil => exact ⟨[], rfl⟩
  | cons item items ih =>
    obtain ⟨result, b', hround, hb'⟩ := hstep 0 (Nat.zero_lt_succ _) b item hb
    have hlater : ∀ i < items.length, ∀ b item, I b →
        ∃ result b', step (k + 1 + i) b item = .done (result, b') ∧ I b' := by
      intro i hi b item hb
      have hk : k + 1 + i = k + (i + 1) := by omega
      rw [hk]
      exact hstep (i + 1) (Nat.succ_lt_succ hi) b item hb
    obtain ⟨later, hdone⟩ := ih hb' hlater
    refine ⟨result :: later, ?_⟩
    rw [rounds, show step k b item = _ from hround, Run.done_bind]
    dsimp only
    rw [hdone]
    rfl

end Prog

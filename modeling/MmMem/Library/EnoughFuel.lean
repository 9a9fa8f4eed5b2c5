import MmMem.Library.BoundedRun

namespace Prog.Run
set_option autoImplicit true

/-- More fuel leaves a run that is done as it is. -/
def Lasts (x : Nat → Run ε α) : Prop :=
  ∀ (fuel more : Nat) (a : α), fuel ≤ more → x fuel = .done a → x more = .done a

/-- With enough fuel the run is done, always with the same result. -/
def Returns (P : α → Prop) (x : Nat → Run ε α) : Prop :=
  ∃ a, P a ∧ ∃ enough, ∀ fuel ≥ enough, x fuel = .done a

theorem Lasts.const (x : Run ε α) : Lasts fun _ => x := fun _ _ _ _ h => h

theorem Lasts.bind {x : Nat → Run ε α} {f : Nat → α → Run ε β} (hx : Lasts x)
    (hf : ∀ a, Lasts fun fuel => f fuel a) : Lasts fun fuel => x fuel >>= f fuel := by
  intro fuel more b hle h
  obtain ⟨a, ha, hb⟩ := bind_eq_done.1 h
  exact bind_eq_done.2 ⟨a, hx fuel more a hle ha, hf a fuel more b hle hb⟩

theorem Lasts.returns {x : Nat → Run ε α} (h : Lasts x) (hsafe : ∀ fuel, Safe P (x fuel))
    (hends : ∃ fuel, x fuel ≠ .running) : Returns P x := by
  obtain ⟨enough, hne⟩ := hends
  obtain ⟨a, ha, hP⟩ := (hsafe enough).exists_done hne
  exact ⟨a, hP, enough, fun fuel hle => h enough fuel a hle ha⟩

theorem Returns.done {x : Nat → Run ε α} (hx : ∀ fuel, x fuel = .done a) (h : P a) : Returns P x :=
  ⟨a, h, 0, fun fuel _ => hx fuel⟩

theorem Returns.of_safe {x : Run ε α} (h : Safe P x) (hx : x ≠ .running) :
    Returns P fun _ => x := by
  obtain ⟨a, ha, hP⟩ := h.exists_done hx
  exact .done (fun _ => ha) hP

theorem Returns.mono {x : Nat → Run ε α} (h : Returns P x) (hPQ : ∀ a, P a → Q a) :
    Returns Q x := by
  obtain ⟨a, ha, henough⟩ := h
  exact ⟨a, hPQ a ha, henough⟩

theorem Returns.bind {x : Nat → Run ε α} {f : Nat → α → Run ε β} (hx : Returns P x)
    (hf : ∀ a, P a → Returns Q fun fuel => f fuel a) :
    Returns Q fun fuel => x fuel >>= f fuel := by
  obtain ⟨a, ha, e, he⟩ := hx
  obtain ⟨b, hb, e', he'⟩ := hf a ha
  refine ⟨b, hb, max e e', fun fuel hfuel => ?_⟩
  dsimp only
  rw [he fuel (by omega), done_bind]
  exact he' fuel (by omega)

theorem Returns.all {f : Nat → α → Run ε β} {as : List α}
    (h : ∀ a ∈ as, Returns P fun fuel => f fuel a) :
    Returns (fun bs => bs.length = as.length ∧ ∀ b ∈ bs, P b)
      fun fuel => Run.all (as.map (f fuel)) := by
  induction as with
  | nil => exact .done (fun _ => rfl) ⟨rfl, fun b hb => absurd hb List.not_mem_nil⟩
  | cons a as ih =>
    obtain ⟨b, hb, e, he⟩ := h a List.mem_cons_self
    obtain ⟨bs, ⟨hlen, hbs⟩, e', he'⟩ := ih fun a' ha' => h a' (List.mem_cons_of_mem a ha')
    refine ⟨b :: bs, ⟨congrArg Nat.succ hlen, List.forall_mem_cons.2 ⟨hb, hbs⟩⟩, max e e',
      fun fuel hfuel => ?_⟩
    have hfirst : f fuel a = .done b := he fuel (by omega)
    have hrest : Run.all (as.map (f fuel)) = .done bs := he' fuel (by omega)
    dsimp only
    rw [List.map_cons, Run.all, hfirst, hrest]
    rfl

end Prog.Run

import MmMem.RunnerOutcomes
import MmMem.RunnerTrace
import MmMem.CommandLineValues

namespace MmMem
open Prog
set_option autoImplicit true

/-- The commands announced, in order. -/
def announcedCommands (w : World HostPath) : List (List String) :=
  w.events.filterMap fun
    | .announce command => some command
    | _ => none

/-- The same arguments with `--dry-run`. -/
def Args.rehearsed (args : Args) : Args := { args with dryRun := true }

/-- A command on huge pages, with this access. -/
def elevated (privilege command : List String) : List String :=
  if command.contains "-H" then privilege ++ command else command

theorem elevated_nil (command : List String) : elevated [] command = command := by
  rw [elevated, List.nil_append, ite_self]

variable {m : Machine} {args : Args} {b : Benchmark} {w : World HostPath}

theorem ranCommands_events (w : World HostPath) :
    ranCommands w.log = w.events.filterMap Event.ran? := by
  rw [ranCommands, World.events, List.filterMap_map]
  rfl

theorem filterMap_quiet {f : Event HostPath → Option β} {events : List (Event HostPath)}
    (hf : ∀ e, e.isCommand = false → f e = none) (h : ∀ e ∈ events, e.isCommand = false) :
    events.filterMap f = [] :=
  List.filterMap_eq_nil_iff.2 fun e he => hf e (h e he)

/-- A run that returns has run, or announced, its plan. -/
theorem Staged.commands {f : Event HostPath → Option (List String)}
    (h : Staged (Completed m args) w) (hf : ∀ e, e.isCommand = false → f e = none)
    (hcommand : ∀ command, (commandEvents args.dryRun true command).filterMap f = [command]) :
    ∃ hugeSize privileged, HugeChoice m args hugeSize privileged ∧ w.events.filterMap f =
      (args.plan m hugeSize).map (Benchmark.command m args privileged) := by
  obtain ⟨setup, bench, hsetup, ⟨hugeSize, privileged, hchoice, rfl⟩, restoration, hw, hnone⟩ := h
  refine ⟨hugeSize, privileged, hchoice, ?_⟩
  have hplan : ∀ commands : List (List String),
      (planEvents args.dryRun commands).filterMap f = commands := by
    intro commands
    induction commands with
    | nil => rfl
    | cons command commands ih =>
      rw [planEvents, List.flatMap_cons, List.filterMap_append, hcommand]
      exact congrArg (command :: ·) ih
  rw [hw, List.filterMap_append, List.filterMap_append, filterMap_quiet hf hsetup,
    filterMap_quiet hf hnone, hplan, List.nil_append, List.append_nil]

theorem main_ran {env : Env HostPath} {files : HostPath → Int}
    (h : (main env m args (.start files)).1 = .ok status) (hdry : args.dryRun = false) :
    ∃ hugeSize privileged, HugeChoice m args hugeSize privileged ∧
      ranCommands (main env m args (.start files)).2.log =
        (args.plan m hugeSize).map (Benchmark.command m args privileged) := by
  rw [ranCommands_events]
  apply (main_completed h).1.commands
  · intro e he
    cases e with
    | run command ok => cases he
    | _ => rfl
  · intro command
    rw [hdry]
    rfl

theorem main_announced {env : Env HostPath} {files : HostPath → Int}
    (h : (main env m args (.start files)).1 = .ok status) :
    ∃ hugeSize privileged, HugeChoice m args hugeSize privileged ∧
      announcedCommands (main env m args (.start files)).2 =
        (args.plan m hugeSize).map (Benchmark.command m args privileged) := by
  apply (main_completed h).1.commands
  · intro e he
    cases e with
    | announce command => cases he
    | _ => rfl
  · intro command
    rw [commandEvents]
    cases args.dryRun with
    | true => rfl
    | false => rfl

theorem toString_ne_huge (n : Nat) : toString n ≠ "-H" := by
  intro h
  obtain ⟨c, digits, hdigits, -, -, hminus⟩ := toDigits_cons n
  have hlist := congrArg String.toList h
  rw [toList_toString, hdigits] at hlist
  exact hminus (List.cons.inj hlist).1

theorem mem_benchmarkCommand {name : String} {options : List String}
    (hpath : m.binPath name ≠ "-H") (h : "-H" ∈ benchmarkCommand m args name options none) :
    "-H" ∈ options := by
  have hnumber : ∀ (flag : String) (n : Nat), flag ≠ "-H" → "-H" ∉ [flag, toString n] := by
    intro flag n hflag hmem
    rcases List.mem_cons.1 hmem with he | hmem
    · exact hflag he.symm
    · exact toString_ne_huge n (List.mem_singleton.1 hmem).symm
  rw [benchmarkCommand, List.mem_append, List.mem_append, List.mem_append, List.mem_append] at h
  rcases h with (((h | h) | h) | h) | h
  · exact absurd (List.mem_singleton.1 h).symm hpath
  · exact absurd h (hnumber _ _ (by decide))
  · cases hthreads : args.numThreads with
    | none =>
      rw [hthreads] at h
      cases h
    | some n =>
      rw [hthreads] at h
      dsimp only at h
      split at h
      · exact absurd h (hnumber _ _ (by decide))
      · cases h
  · cases hregion : args.regionSize with
    | none =>
      rw [hregion] at h
      cases h
    | some n =>
      rw [hregion] at h
      exact absurd h (hnumber _ _ (by decide))
  · exact h

theorem mem_command_iff (hpath : ∀ name, m.binPath name ≠ "-H") (hb : b ∈ args.plan m hugeSize) :
    "-H" ∈ b.command m args none ↔ b.huge = true := by
  constructor
  · intro hmem
    rw [Benchmark.command, ite_self] at hmem
    have hoption := mem_benchmarkCommand (hpath b.name) hmem
    revert hoption
    rcases mem_testPlan.1 hb with ⟨-, rfl | ⟨-, rfl⟩⟩ | ⟨-, rfl | ⟨-, mix, rfl | rfl, rfl⟩ | rfl | rfl⟩ |
        ⟨-, rfl | ⟨-, rfl⟩⟩
    · cases !m.nodes.isEmpty && !args.noMatrices <;> decide
    · exact fun _ => rfl
    all_goals first | decide | exact fun _ => rfl
  · intro hhuge
    exact List.mem_append_right _ (testPlan_huge hb hhuge)

theorem huge_eq_false (hb : b ∈ args.plan m 0) : b.huge = false := by
  rw [Args.plan, ← testPlan_ordinary _ _ 0, List.mem_filter] at hb
  exact Bool.not_eq_true' _ ▸ hb.2

theorem plan_zero (m : Machine) (args : Args) (privileged : Option (List String)) :
    (args.plan m 0).map (Benchmark.command m args privileged) =
      (args.plan m 0).map (Benchmark.command m args none) := by
  apply List.map_congr_left
  intro b hb
  rw [Benchmark.command, Benchmark.command, huge_eq_false hb]
  rfl

theorem plan_ordinary (hpath : ∀ name, m.binPath name ≠ "-H") (hugeSize : Nat)
    (privileged : Option (List String)) :
    (args.plan m 0).map (Benchmark.command m args privileged) =
      ordinary ((args.plan m hugeSize).map (Benchmark.command m args none)) := by
  rw [plan_zero, Args.plan, Args.plan, ordinary_plan, ordinary, List.filter_eq_self.2]
  intro command hcommand
  obtain ⟨b, hb, rfl⟩ := List.mem_map.1 hcommand
  have hnot : ¬ "-H" ∈ b.command m args none :=
    mt (mem_command_iff hpath hb).1 (Bool.eq_false_iff.1 (huge_eq_false hb))
  rw [Bool.not_eq_true', ← Bool.not_eq_true, List.contains_iff_mem]
  exact hnot

/-- The access of a plan stands before its commands on huge pages. -/
theorem plan_elevated (hpath : ∀ name, m.binPath name ≠ "-H") (hugeSize : Nat)
    (privilege : List String) :
    (args.plan m hugeSize).map (Benchmark.command m args (some privilege)) =
      ((args.plan m hugeSize).map (Benchmark.command m args none)).map (elevated privilege) := by
  rw [List.map_map]
  apply List.map_congr_left
  intro b hb
  rw [Function.comp_apply, elevated, List.contains_eq_mem]
  by_cases hhuge : b.huge = true
  · rw [if_pos (decide_eq_true ((mem_command_iff hpath hb).2 hhuge))]
    simp only [Benchmark.command, hhuge, if_true, benchmarkCommand, Option.getD_some,
      Option.getD_none, List.nil_append, List.append_assoc]
  · rw [if_neg (by simpa using mt (mem_command_iff hpath hb).1 hhuge), Benchmark.command,
      Benchmark.command, if_neg hhuge, if_neg hhuge]

/-- Rehearsals, and runs that set up no huge pages themselves, run every command as the caller. -/
theorem HugeChoice.unprefixed (h : HugeChoice m args hugeSize privileged)
    (hcaller : args.dryRun = true ∨ args.hugepages ≠ .auto) :
    (args.plan m hugeSize).map (Benchmark.command m args privileged) =
      (args.plan m hugeSize).map (Benchmark.command m args none) := by
  by_cases hzero : hugeSize = 0
  · subst hzero
    exact plan_zero m args privileged
  · rcases h.prefixed hzero with rfl | ⟨-, hauto, hallowed⟩
    · rfl
    · rcases hcaller with hdry | hmode
      · rw [hdry, Bool.or_true] at hallowed
        cases hallowed
      · exact absurd hauto hmode

theorem Args.rehearsed_plan (m : Machine) (args : Args) (size : Nat) :
    args.rehearsed.plan m size = args.plan m size := rfl

theorem Args.rehearsed_command (m : Machine) (args : Args) (privileged : Option (List String)) :
    Benchmark.command m args.rehearsed privileged = Benchmark.command m args privileged := rfl

/-- A run comes to the size of its rehearsal, or to none. -/
theorem HugeChoice.rehearsed (h : HugeChoice m args size privileged)
    (h' : HugeChoice m args.rehearsed size' privileged') (hne : size ≠ 0) : size' = size := by
  obtain ⟨hlatency, hoff⟩ := h.wanted hne
  rw [h'.sure (.inl rfl) hlatency hoff]
  exact (h.picked.resolve_left hne).symm

theorem HugeChoice.rehearsed_eq (h : HugeChoice m args size privileged)
    (h' : HugeChoice m args.rehearsed size' privileged') (hmode : args.hugepages ≠ .auto) :
    size' = size := by
  by_contra hne
  have hzero : size = 0 := by
    by_contra hsize
    exact hne (h.rehearsed h' hsize)
  obtain ⟨hlatency, hoff⟩ := h'.wanted fun hsize => hne (hsize.trans hzero.symm)
  have hexisting : args.hugepages = .existing := by
    cases hm : args.hugepages with
    | auto => exact absurd hm hmode
    | off => exact absurd hm hoff
    | existing => rfl
  apply hne
  rw [h'.sure (.inl rfl) hlatency hoff]
  exact (h.sure (.inr hexisting) hlatency hoff).symm

/-- A rehearsal announces what a run executes: nothing more and nothing less unless huge pages
are set up automatically; then the commands on huge pages may be left out, or have a prefix. -/
theorem rehearsal_foretells (env env' : Env HostPath) (m : Machine) (args : Args)
    (files files' : HostPath → Int) (status status' : Nat) (hdry : args.dryRun = false)
    (hpath : ∀ name, m.binPath name ≠ "-H")
    (hran : (main env m args (.start files)).1 = .ok status)
    (hannounced : (main env' m args.rehearsed (.start files')).1 = .ok status') :
    let ran := ranCommands (main env m args (.start files)).2.log
    let announced := announcedCommands (main env' m args.rehearsed (.start files')).2
    (args.hugepages ≠ .auto → ran = announced) ∧
      (ran = ordinary announced ∨ ∃ privilege, (privilege = [] ∨ privilege = ["sudo", "-n", "--"]) ∧
        ran = announced.map (elevated privilege)) := by
  obtain ⟨size, privileged, h, hcommands⟩ := main_ran hran hdry
  obtain ⟨size', privileged', h', hcommands'⟩ := main_announced hannounced
  rw [h'.unprefixed (.inl rfl), Args.rehearsed_plan, Args.rehearsed_command] at hcommands'
  intro ran announced
  rw [show ran = _ from hcommands, show announced = _ from hcommands']
  constructor
  · intro hmode
    rw [h.rehearsed_eq h' hmode]
    exact h.unprefixed (.inr hmode)
  · by_cases hzero : size = 0
    · subst hzero
      exact .inl (plan_ordinary hpath size' privileged)
    · right
      rw [h.rehearsed h' hzero]
      rcases h.prefixed hzero with rfl | ⟨rfl | rfl, -⟩
      · exact ⟨[], .inl rfl, (List.map_id'' elevated_nil _).symm⟩
      · exact ⟨[], .inl rfl, plan_elevated hpath size _⟩
      · exact ⟨_, .inr rfl, plan_elevated hpath size _⟩

/-- With `sudo`, on a machine that offers pages of 2 MiB. -/
theorem rehearsal_foretells_sudo :
    let args : Args := ⟨⟨5, by decide⟩, [.idleLatency], none, none, false, .auto, false, false,
      false, false⟩
    let m : Machine := ⟨true, false, true, true, 8, fun _ => true, fun name => "/bin/" ++ name,
      [⟨0, some 4194304, [2048]⟩]⟩
    let env : Env HostPath := ⟨fun _ _ => [], fun _ _ => none, fun _ _ => .takes,
      fun _ _ => none, fun _ => "path"⟩
    let announced := announcedCommands (main env m args.rehearsed (.start fun _ => 7)).2
    ∃ privilege, (privilege = [] ∨ privilege = ["sudo", "-n", "--"]) ∧
      ranCommands (main env m args (.start fun _ => 1)).2.log =
        announced.map (elevated privilege) := by
  intro args m env announced
  have hpath : ∀ name, m.binPath name ≠ "-H" := by
    intro name h
    have hlist := congrArg String.toList h
    rw [show m.binPath name = "/bin/" ++ name from rfl, String.toList_append] at hlist
    exact absurd (List.cons.inj hlist).1 (by decide)
  have hran : (main env m args (.start fun _ => 1)).1.toOption = some 0 := by decide +kernel
  have hannounced : (main env m args.rehearsed (.start fun _ => 7)).1.toOption = some 0 := by
    decide +kernel
  have hsome : ranCommands (main env m args (.start fun _ => 1)).2.log ≠ ordinary announced := by
    decide +kernel
  exact (rehearsal_foretells env env m args _ _ 0 0 rfl hpath (Script.returned hran)
    (Script.returned hannounced)).2.resolve_left hsome

end MmMem

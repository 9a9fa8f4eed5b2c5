import MmMem.RunnerSignals

namespace MmMem
open Prog
set_option autoImplicit true

variable {env : Env HostPath} {m : Machine} {args : Args} {I : World HostPath → Prop}

/-- Every event so far is of this kind. -/
def Logged {π : Type} (Q : Event π → Prop) (w : World π) : Prop := ∀ ev ∈ w.log, Q ev.2

theorem Logged.record {π : Type} {Q : Event π → Prop} {w : World π} (h : Logged Q w) {e : Event π}
    (he : Q e) : Logged Q (w.record e) := by
  intro ev hev
  rcases List.mem_cons.1 hev with rfl | hev
  · exact he
  · exact h ev hev

/-- A property that phases, statement numbers and signal handlers do not change. -/
def ControlBlind (I : World HostPath → Prop) : Prop :=
  ∀ w phase step ignored, I w → I { w with phase := phase, step := step, ignored := ignored }

theorem ControlBlind.step (hI : ControlBlind I) (w : World HostPath) (n : Nat) (hw : I w) :
    I { w with step := n } := hI w w.phase n w.ignored hw

theorem ControlBlind.mask (hI : ControlBlind I) (sig : Signal) : Script.Keeps I (mask env sig) := by
  apply (boundary_steps hI.step).bind
  intro _
  apply (Script.Keeps.get I).bind
  intro w
  exact Script.Keeps.bind (fun w hw => hI w w.phase w.step _ hw) fun _ => Script.Keeps.pure I _

theorem ControlBlind.unmask (hI : ControlBlind I) (previous : List (Signal × Bool)) :
    Script.Keeps I (unmask env previous) := by
  apply Script.Keeps.forEach
  intro entry _
  apply (boundary_steps hI.step).bind
  intro _ w hw
  exact hI w w.phase w.step _ hw

theorem ControlBlind.enterCleanup (hI : ControlBlind I) (args : Args) :
    Script.Keeps I (enterCleanup env args) := by
  refine Script.Keeps.bind (fun w hw => hI w .cleanup 0 w.ignored hw) fun _ => ?_
  apply (boundary_steps hI.step).bind
  intro _
  apply (boundary_steps hI.step).bind
  intro _
  exact Script.Keeps.collect fun sig _ => hI.mask sig

theorem restoreTransaction_keeps {t : Transaction}
    (hrestore : Script.Keeps I (KernelSettings.restore env t)) :
    Script.Keeps I (restoreTransaction env t) := by
  apply Script.Keeps.tryExcept (hrestore.bind fun _ => Script.Keeps.pure I _)
  intro e k hk
  split at hk
  · cases hk
    exact Script.Keeps.pure I _
  · cases hk

theorem ControlBlind.finallyBlock (hI : ControlBlind I)
    (hrestore : ∀ t, Script.Keeps I (KernelSettings.restore env t)) (args : Args) :
    Script.Keeps I (finallyBlock env args) := by
  apply (hI.enterCleanup args).bind
  intro previous
  apply Script.Keeps.bind
  · apply Script.Meets.tryFinally
    · exact Script.Keeps.collect fun t _ => restoreTransaction_keeps (hrestore t)
    · exact hI.unmask previous
  intro failed
  apply (boundary_steps hI.step).bind
  intro _
  split
  · exact Script.Keeps.raise I _
  · exact Script.Keeps.pure I _

/-- What a whole run keeps from its `try` statement on: it configures the host, runs commands and
restores. -/
theorem main_meets (hI : ControlBlind I) (hconf : Configures env may I)
    (hpre : Script.Meets P (preflight env m args)
      (fun found w => I w ∧ ((args.noSystemConfig || args.dryRun) = true → found.2.2 = none))
      fun _ => I)
    (hsettings : (args.noSystemConfig || args.dryRun) = false → may .settings)
    (hhuge : (args.noSystemConfig || args.dryRun) = false → args.hugepages = .auto →
      may .hugeSettings)
    (hruns : ∀ privilege privileged, ((args.noSystemConfig || args.dryRun) = true →
      privilege = none) → HugePrefix args privilege privileged → Runs m args I privileged) :
    Script.Meets P (main env m args) (fun _ => I) fun _ => I := by
  apply hpre.bind
  rintro ⟨matrices, autonuma, privilege⟩ w ⟨hw, hnone⟩
  have hallowed : privilege ≠ none → (args.noSystemConfig || args.dryRun) = false := by
    intro hsome
    rw [← Bool.not_eq_true]
    exact fun h => hsome (hnone h)
  have hbody : Script.Keeps I
      (Script.modify fun w => { w with phase := .body, step := 0 } : Program HostPath Unit) :=
    fun w hw => hI w .body 0 w.ignored hw
  refine (hbody.bind fun _ => ?_) w hw
  apply Script.Keeps.bind
  · apply Script.Meets.tryFinally
    · exact hconf.tryBlock m args matrices autonuma privilege (fun h => hsettings (hallowed h))
        (fun hauto h => hhuge (hallowed h) hauto) fun privileged => hruns privilege privileged hnone
    · exact hI.finallyBlock hconf.restore args
  · exact fun _ => Script.Keeps.pure I _

/-- The command is one of the repository's binaries with its arguments, not `sudo`. -/
def Unprefixed (m : Machine) (command : List String) : Prop :=
  ∃ name arguments, command = m.binPath name :: arguments

/-- A command the event announces or runs has no prefix. -/
def RunsUnprefixed (m : Machine) (e : Event HostPath) : Prop :=
  ∀ command, e = .announce command ∨ (∃ ok, e = .run command ok) → Unprefixed m command

/-- No file is written, and `sudo` is not used. -/
def HandsOff (m : Machine) (e : Event HostPath) : Prop :=
  e.isWrite = false ∧ e ≠ .sudoProbe ∧ RunsUnprefixed m e

/-- Of all files, at most the one of NUMA balancing is written. -/
def SparesMemory (e : Event HostPath) : Prop :=
  e.isWrite = true → e.path? = some .numaBalancing

theorem runsUnprefixed_of_path {e : Event HostPath} (h : e.path? = some p) :
    RunsUnprefixed m e := by
  rintro command (rfl | ⟨ok, rfl⟩)
  · cases h
  · cases h

theorem runsUnprefixed_restored (t : Transaction) : RunsUnprefixed m (.restored t) := by
  rintro command (h | ⟨ok, h⟩)
  · cases h
  · cases h

theorem runsUnprefixed_command {e : Event HostPath} {name : String} {options : List String}
    (h : e = .announce (benchmarkCommand m args name options none) ∨
      ∃ ok, e = .run (benchmarkCommand m args name options none) ok) : RunsUnprefixed m e := by
  intro command hcommand
  obtain rfl : command = benchmarkCommand m args name options none := by
    rcases h with rfl | ⟨ok, rfl⟩
    · rcases hcommand with he | ⟨ok, he⟩
      · cases he
        rfl
      · cases he
    · rcases hcommand with he | ⟨ok', he⟩
      · cases he
      · cases he
        rfl
  exact ⟨name, _, rfl⟩

theorem isWrite_of_command {e : Event HostPath} {command : List String}
    (h : e = .announce command ∨ ∃ ok, e = .run command ok) :
    e.isWrite = false ∧ e ≠ .sudoProbe := by
  rcases h with rfl | ⟨ok, rfl⟩
  · exact ⟨rfl, nofun⟩
  · exact ⟨rfl, nofun⟩

theorem Logged.frameAt {Q : Event HostPath → Prop} {p : HostPath}
    (hQ : ∀ e : Event HostPath, e.path? = some p → Q e) : FrameAt p (Logged Q) where
  step _ _ hw := hw
  record _ e hp hw := hw.record (hQ e hp)

theorem Logged.blindAt {Q : Event HostPath → Prop} {t : Transaction} {p : HostPath}
    (hQ : ∀ e : Event HostPath, e.path? = some p → Q e) : BlindAt env t p (Logged Q) where
  toFrameAt := Logged.frameAt hQ
  write _ := (Logged.frameAt hQ).write fun _ _ hw => hw
  setOriginal _ _ hw := hw

theorem restore_unrecorded (env : Env HostPath) {Q : Event HostPath → Prop} {t : Transaction}
    {J : Host HostPath → Prop}
    (hJ : ∀ h, J h → (h.transaction t).original = []) (hQ : Q (.restored t)) :
    Script.Keeps (fun w => J w.host ∧ Logged Q w) (KernelSettings.restore env t) := by
  apply Script.Keeps.of_state
  intro w hw
  obtain ⟨hhost, new, hlog, hnew⟩ := restore_empty_quiet env (hJ _ hw.1)
  refine ⟨hhost ▸ hw.1, fun ev hev => ?_⟩
  rw [hlog] at hev
  rcases List.mem_append.1 hev with hev | hev
  · rw [hnew ev hev]
    exact hQ
  · exact hw.2 ev hev

/-- Nothing has happened to the host. -/
def Pristine (initial : HostPath → Int) (h : Host HostPath) : Prop :=
  Unrecorded h ∧ h.files = initial

theorem Pristine.recoverable (h : Pristine initial host) :
    Recoverable HostPath.owner initial host where
  held p _ _ := .inl (congrFun h.2 p)
  recorded t _ he := absurd (h.1 t ▸ he) List.not_mem_nil
  nodup t := h.1 t ▸ List.nodup_nil

theorem preflight_pristine {Q : Event HostPath → Prop} (initial : HostPath → Int)
    (hread : ∀ ok, Q (.read .numaBalancing ok))
    (hprobe : (args.noSystemConfig || args.dryRun) = false → Q .sudoProbe) :
    Script.Meets (fun w => Pristine initial w.host ∧ Logged Q w) (preflight env m args)
      (fun found w => (Pristine initial w.host ∧ Logged Q w) ∧
        ((args.noSystemConfig || args.dryRun) = true → found.2.2 = none))
      fun _ w => Pristine initial w.host ∧ Logged Q w := by
  apply preflight_meets
  · exact fun _ _ hw => hw
  · exact readInt_records (fun _ _ hw => hw) fun w ok hw => ⟨hw.1, hw.2.record (hread ok)⟩
  · exact fun h w hw => ⟨hw.1, hw.2.record (hprobe h)⟩
  · rintro w privilege ⟨⟨-, hfiles⟩, hlog⟩
    exact ⟨⟨fun _ => rfl, hfiles⟩, hlog⟩

theorem Configures.handsOff (m : Machine) (initial : HostPath → Int) :
    Configures env (fun _ => False)
      fun w => Pristine initial w.host ∧ Logged (HandsOff m) w where
  step _ _ hw := hw
  read _ := readInt_records (fun _ _ hw => hw)
    fun _ _ hw => ⟨hw.1, hw.2.record ⟨rfl, nofun, runsUnprefixed_of_path rfl⟩⟩
  set _ _ _ h _ := h.elim
  write _ _ h _ := h.elim
  restore t := restore_unrecorded env (fun _ hp => hp.1 t) ⟨rfl, nofun, runsUnprefixed_restored t⟩

theorem Configures.unprefixed (m : Machine) :
    Configures env (fun _ => True) (Logged (RunsUnprefixed m)) :=
  .of_blindAt (fun _ _ => Logged.blindAt fun _ => runsUnprefixed_of_path)
    fun t _ hw => hw.record (runsUnprefixed_restored t)

theorem HostPath.eq_numaBalancing {p : HostPath} (h : p.owner = some .settings) :
    p = .numaBalancing := by
  cases p with
  | numaBalancing => rfl
  | nrHugepages nid size => cases h
  | dropCaches => cases h
  | compactMemory => cases h

/-- No pool is recorded, and none has been written. -/
def PoolsSpared (w : World HostPath) : Prop :=
  (w.host.transaction .hugeSettings).original = [] ∧ Logged SparesMemory w

theorem PoolsSpared.frameAt : FrameAt .numaBalancing PoolsSpared where
  step _ _ hw := hw
  record _ _ hp hw := ⟨hw.1, hw.2.record fun _ => hp⟩

theorem PoolsSpared.blindAt : BlindAt env .settings .numaBalancing PoolsSpared where
  toFrameAt := PoolsSpared.frameAt
  write _ := PoolsSpared.frameAt.write fun _ _ hw => hw
  setOriginal w o hw := by
    refine ⟨?_, hw.2⟩
    rw [World.withHost_host, Host.setOriginal_ne w.host o Transaction.noConfusion]
    exact hw.1

theorem Configures.sparesMemory (initial : HostPath → Int) :
    Configures env (· = .settings)
      fun w => Recoverable HostPath.owner initial w.host ∧ PoolsSpared w where
  step _ _ hw := hw
  read _ := readInt_records (fun _ _ hw => hw)
    fun _ _ hw => ⟨hw.1, hw.2.1, hw.2.2.record nofun⟩
  set _ _ _ ht ho := by
    subst ht
    obtain rfl := HostPath.eq_numaBalancing ho
    exact (set_recoverable ho).and PoolsSpared.blindAt.set
  write _ _ h _ := by cases h
  restore t := by
    cases t with
    | hugeSettings =>
      have hquiet := restore_unrecorded env (Q := SparesMemory) (t := .hugeSettings)
        (J := fun h => Recoverable HostPath.owner initial h ∧
          (h.transaction .hugeSettings).original = []) (fun _ hJ => hJ.2) nofun
      exact hquiet.mono (fun _ hw => ⟨⟨hw.1, hw.2.1⟩, hw.2.2⟩)
        (fun _ _ hw => ⟨hw.1.1, hw.1.2, hw.2⟩) fun _ _ hw => ⟨hw.1.1, hw.1.2, hw.2⟩
    | settings =>
      have hspared : Script.Meets (fun w => PoolsSpared w ∧
          ∀ e ∈ (w.host.transaction .settings).original, BlindAt env .settings e.1 PoolsSpared)
          (KernelSettings.restore env .settings) (fun _ => PoolsSpared) fun _ => PoolsSpared :=
        restore_keepsAt (fun _ _ hw => hw) fun _ hw => ⟨hw.1, hw.2.record nofun⟩
      refine (restore_recoverable.and hspared).mono (fun w hw => ⟨hw.1, hw.2, ?_⟩)
        (fun _ _ hw => hw) fun _ _ hw => hw
      intro e he
      rw [HostPath.eq_numaBalancing (hw.1.recorded .settings e he).1]
      exact PoolsSpared.blindAt

theorem main_handsOff (initial : HostPath → Int)
    (hout : (args.noSystemConfig || args.dryRun) = true) :
    Script.Keeps (fun w => Pristine initial w.host ∧ Logged (HandsOff m) w) (main env m args) := by
  have hallowed : (args.noSystemConfig || args.dryRun) ≠ false := ne_false_of_eq_true hout
  apply main_meets (fun _ _ _ _ hw => hw) (.handsOff m initial)
  · exact preflight_pristine initial (fun _ => ⟨rfl, nofun, runsUnprefixed_of_path rfl⟩)
      fun h => absurd h hallowed
  · exact fun h => absurd h hallowed
  · exact fun h => absurd h hallowed
  · intro privilege privileged hnone hgiven name options w hw e he
    obtain rfl : privileged = none := by
      rcases hgiven with rfl | ⟨rfl, -⟩
      · rfl
      · exact hnone hout
    obtain ⟨hwrite, hprobe⟩ := isWrite_of_command he
    exact ⟨hw.1, hw.2.record ⟨hwrite, hprobe, runsUnprefixed_command he⟩⟩

theorem main_sparesMemory (initial : HostPath → Int) (hmode : args.hugepages ≠ .auto) :
    Script.Meets (fun w => Pristine initial w.host ∧ Logged SparesMemory w) (main env m args)
      (fun _ => Logged SparesMemory) fun _ => Logged SparesMemory := by
  have hmain : Script.Meets (fun w => Pristine initial w.host ∧ Logged SparesMemory w)
      (main env m args) (fun _ w => Recoverable HostPath.owner initial w.host ∧ PoolsSpared w)
      fun _ w => Recoverable HostPath.owner initial w.host ∧ PoolsSpared w := by
    have hpristine : ∀ w : World HostPath, Pristine initial w.host ∧ Logged SparesMemory w →
        Recoverable HostPath.owner initial w.host ∧ PoolsSpared w :=
      fun w hw => ⟨hw.1.recoverable, hw.1.1 _, hw.2⟩
    apply main_meets (fun _ _ _ _ hw => hw) (.sparesMemory initial)
    · exact (preflight_pristine initial (fun _ => nofun) fun _ => nofun).mono (fun _ hw => hw)
        (fun _ w hw => ⟨hpristine w hw.1, hw.2⟩) fun _ w hw => hpristine w hw
    · exact fun _ => rfl
    · exact fun _ h => absurd h hmode
    · intro privilege privileged _ _ name options w hw e he
      refine ⟨hw.1, hw.2.1, hw.2.2.record fun hwrite => ?_⟩
      rw [(isWrite_of_command he).1] at hwrite
      cases hwrite
  exact hmain.mono (fun _ hw => hw) (fun _ _ hw => hw.2.2) fun _ _ hw => hw.2.2

theorem main_unprefixed (hmode : args.hugepages = .existing) :
    Script.Keeps (Logged (RunsUnprefixed m)) (main env m args) := by
  apply main_meets (fun _ _ _ _ hw => hw) (.unprefixed m)
  · apply preflight_meets (fun _ _ hw => hw) ((Configures.unprefixed m).read _)
    · exact fun _ w hw => hw.record fun command h => by rcases h with h | ⟨ok, h⟩ <;> cases h
    · exact fun _ _ hw => hw
  · exact fun _ => trivial
  · exact fun _ _ => trivial
  · intro privilege privileged hnone hgiven name options w hw e he
    obtain rfl : privileged = none := by
      rcases hgiven with rfl | ⟨rfl, hdry | hother⟩
      · rfl
      · exact hnone (by rw [hdry, Bool.or_true])
      · exact absurd hmode hother
    exact hw.record (runsUnprefixed_command he)

/-- The opt-outs are honoured on every path: whatever fails or interrupts the run, it writes no
file and does not use `sudo` with `--no-system-config` or `--dry-run`, leaves memory alone unless
huge pages are set up automatically, and runs every command as the caller if pages that exist are
to be used. -/
theorem opt_outs_honoured (env : Env HostPath) (m : Machine) (args : Args)
    (initial : HostPath → Int) :
    let r := main env m args (.start initial)
    ((args.noSystemConfig || args.dryRun) = true →
      (∀ ev ∈ r.2.log, HandsOff m ev.2) ∧ r.2.host.files = initial) ∧
    (args.hugepages ≠ .auto → ∀ ev ∈ r.2.log, SparesMemory ev.2) ∧
    (args.hugepages = .existing → ∀ ev ∈ r.2.log, RunsUnprefixed m ev.2) := by
  intro r
  have hstart : ∀ Q, Pristine initial (World.start initial).host ∧ Logged Q (.start initial) :=
    fun Q => ⟨⟨fun _ => rfl, rfl⟩, nofun⟩
  refine ⟨fun hout => ?_, fun hmode => ?_, fun hmode => ?_⟩
  · obtain ⟨hhost, hlog⟩ := (main_handsOff initial hout).state (hstart _)
    exact ⟨hlog, hhost.2⟩
  · exact (main_sparesMemory initial hmode (.start initial) (hstart _)).state
  · exact (main_unprefixed hmode).state (hstart _).2

end MmMem

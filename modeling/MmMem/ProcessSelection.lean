import MmMem.AncestorPids

namespace MmMem
open Prog
set_option autoImplicit true

/-- The options of `measure_stats.py`. -/
structure StatsArgs where
  interval : Nat
  positive : 0 < interval
  pids : Option Text
  pgrep : Option Text
  exclusive : pids = none ∨ pgrep = none

structure CompletedProcess where
  returncode : Int
  stdout : Text
  stderr : Text

/-- What `get_pids` finds around it. -/
structure ProcessHost where
  getpid : Nat
  table : List Process
  /-- `subprocess.run` with both pipes -/
  run : List Text → Except Exn CompletedProcess
  /-- the text of `{pattern!r}` -/
  repr : Text → Text

def valueError (message : Text) : Exn := .error .valueError (String.ofList message)

/-- A check of `--pids`: the word is not a positive decimal number. -/
def notPositive (pid : Text) : Bool :=
  pid = [] || pid.any (fun c => c ∉ "0123456789".toList) || decimal pid = 0

def getPids (host : ProcessHost) (fuel : Nat) (args : StatsArgs) : Run Exn (List Text) :=
  match args.pids with
  | some pids =>
    let pids := (pids.splitOn ',').map strip
    if pids.any notPositive then
      .fault (valueError "--pids requires positive process IDs separated by commas".toList)
    else .done (pids.map fun pid => str (decimal pid)).eraseDups
  | none =>
    match args.pgrep with
    | some pattern =>
      if strip pattern = [] then
        .fault (valueError "--pgrep requires a nonempty pattern".toList)
      else
        match host.run ["pgrep".toList, "-f".toList, "--".toList, pattern] with
        | .error e => .fault e
        | .ok result =>
          if result.returncode ≠ 0 ∧ result.returncode ≠ 1 then
            .fault (valueError ("pgrep failed: ".toList ++ strip result.stderr))
          else do
            let excluded ← ancestorPids host.table host.getpid fuel
            let pids := (words result.stdout).filter fun pid => !excluded.contains pid
            if pids = [] then
              .fault (valueError ("No processes matched ".toList ++ host.repr pattern ++
                "; no counters collected".toList))
            else .done pids
    | none => .done [[]]

/-- What pgrep prints: one process ID to a line. -/
def printedLines (printed : List Nat) : Text := printed.flatMap fun pid : Nat => str pid ++ ['\n']

theorem words_printedLines (printed : List Nat) :
    words (printedLines printed) = printed.map fun pid : Nat => str pid := by
  induction printed with
  | nil => rfl
  | cons pid printed ih =>
    rw [printedLines, List.flatMap_cons, List.append_assoc]
    rw [List.singleton_append, words_append (str_ne_nil pid) (str_plain pid) rfl, List.map_cons]
    exact congrArg (str pid :: ·) ih

section Selection

variable {host : ProcessHost} {args : StatsArgs} {result : CompletedProcess} {pattern : Text}

theorem getPids_blank (hpids : args.pids = none) (hpattern : args.pgrep = some pattern)
    (hblank : strip pattern = []) (fuel : Nat) :
    getPids host fuel args = .fault (valueError "--pgrep requires a nonempty pattern".toList) := by
  rw [getPids, hpids, hpattern]
  exact if_pos hblank

theorem getPids_failed (hpids : args.pids = none) (hpattern : args.pgrep = some pattern)
    (hblank : strip pattern ≠ [])
    (hrun : host.run ["pgrep".toList, "-f".toList, "--".toList, pattern] = .ok result)
    (hfailed : result.returncode ≠ 0 ∧ result.returncode ≠ 1) (fuel : Nat) :
    getPids host fuel args =
      .fault (valueError ("pgrep failed: ".toList ++ strip result.stderr)) := by
  rw [getPids, hpids, hpattern]
  simp only [if_neg hblank, hrun, if_pos hfailed]

theorem getPids_printed (hpids : args.pids = none) (hpattern : args.pgrep = some pattern)
    (hblank : strip pattern ≠ [])
    (hrun : host.run ["pgrep".toList, "-f".toList, "--".toList, pattern] = .ok result)
    (hcode : ¬ (result.returncode ≠ 0 ∧ result.returncode ≠ 1))
    (hout : result.stdout = printedLines printed)
    (hancestors : ancestorPids host.table host.getpid fuel = .done excluded) :
    getPids host fuel args =
      let left := (printed.map fun pid : Nat => str pid).filter fun pid => !excluded.contains pid
      if left = [] then
        .fault (valueError ("No processes matched ".toList ++ host.repr pattern ++
          "; no counters collected".toList))
      else .done left := by
  rw [getPids, hpids, hpattern]
  simp only [if_neg hblank, hrun, if_neg hcode, hancestors, Run.done_bind, hout,
    words_printedLines]

end Selection

/-- What selection by pattern promises of a table: the ancestors of the script are found, and what
pgrep prints is kept but for them, in its order. -/
def SelectsOthers (table : List Process) (self : Nat) : Prop :=
  ∃ excluded, (∀ text, text ∈ excluded ↔ ∃ pid, Ancestor table self pid ∧ text = str pid) ∧
    ∀ fuel, table.length + 3 ≤ fuel → ancestorPids table self fuel = .done excluded ∧
      ∀ (host : ProcessHost) (args : StatsArgs) pattern,
        host.table = table → host.getpid = self → args.pgrep = some pattern →
          (strip pattern = [] →
            ∃ message, getPids host fuel args = .fault (.error .valueError message)) ∧
          ∀ result printed, strip pattern ≠ [] →
            host.run ["pgrep".toList, "-f".toList, "--".toList, pattern] = .ok result →
            result.stdout = printedLines printed →
              let failed := result.returncode ≠ 0 ∧ result.returncode ≠ 1
              let left := (printed.map fun pid : Nat => str pid).filter
                fun pid => !excluded.contains pid
              (∀ pids, getPids host fuel args = .done pids ↔ ¬ failed ∧ left ≠ [] ∧ pids = left) ∧
                ((∃ message, getPids host fuel args = .fault (.error .valueError message)) ↔
                  left = [] ∨ failed)

theorem process_selection_iff (table : List Process) (hself : self ≠ 0) :
    SelectsOthers table self ↔ AncestorsDecodable table self := by
  obtain ⟨excluded, hdone, hiff⟩ := ancestorPids_spec table hself
  constructor
  · rintro ⟨excluded', hmem, hall⟩
    have hsame : excluded' = excluded := by
      have h := (hall _ (Nat.le_refl _)).1
      rw [hdone _ (Nat.le_refl _)] at h
      exact (Run.done.inj h).symm
    exact hiff.1 (hsame ▸ hmem)
  · intro hdecodable
    refine ⟨excluded, hiff.2 hdecodable, fun fuel hfuel => ⟨hdone fuel hfuel, ?_⟩⟩
    intro host args pattern htable hpid hpattern
    have hpids : args.pids = none := args.exclusive.resolve_right (by rw [hpattern]; nofun)
    refine ⟨fun hblank => ⟨_, getPids_blank hpids hpattern hblank fuel⟩, ?_⟩
    intro result printed hblank hrun hout failed left
    have hancestors : ancestorPids host.table host.getpid fuel = .done excluded := by
      rw [htable, hpid, hdone fuel hfuel]
    by_cases hfailed : failed
    · rw [getPids_failed hpids hpattern hblank hrun hfailed]
      exact ⟨fun pids => ⟨nofun, fun h => absurd hfailed h.1⟩,
        ⟨fun _ => .inr hfailed, fun _ => ⟨_, rfl⟩⟩⟩
    rw [getPids_printed hpids hpattern hblank hrun hfailed hout hancestors]
    change (∀ pids, (if left = [] then _ else _) = _ ↔ _) ∧ _
    by_cases hleft : left = []
    · rw [if_pos hleft]
      exact ⟨fun pids => ⟨nofun, fun h => absurd hleft h.2.1⟩,
        ⟨fun _ => .inl hleft, fun _ => ⟨_, rfl⟩⟩⟩
    · rw [if_neg hleft]
      refine ⟨fun pids => ⟨fun h => ⟨hfailed, hleft, (Run.done.inj h).symm⟩, fun h => by
        rw [h.2.2]⟩, ⟨nofun, fun h => absurd (h.resolve_right hfailed) hleft⟩⟩

/-- A name with delimiters in it, and parent links that form a cycle. -/
def delimitedTable : List Process :=
  [⟨30, "a) R 7 (b\n".toUTF8, 'S', rfl, 20, [30, 30]⟩, ⟨20, "cron".toUTF8, 'S', rfl, 30, []⟩]

theorem process_selection_iff_delimited : SelectsOthers delimitedTable 30 := by
  apply (process_selection_iff delimitedTable (by decide)).2
  intro k pid p parent _ hp hinvalid _
  have hall : ∀ p ∈ delimitedTable, p.comm.IsValidUTF8 := by
    decide +kernel
  exact absurd (hall p (List.mem_of_find?_eq_some hp)) hinvalid

/-- The script runs in a shell script whose name is "café" in Latin-1. -/
def latinTable : List Process :=
  [⟨30, "python3".toUTF8, 'R', rfl, 20, []⟩, ⟨20, ⟨#[99, 97, 102, 233]⟩, 'S', rfl, 10, []⟩,
    ⟨10, "bash".toUTF8, 'S', rfl, 1, []⟩, ⟨1, "init".toUTF8, 'S', rfl, 0, []⟩]

/-- pgrep has found the shell that started the script, and one other process. -/
def latinHost : ProcessHost where
  getpid := 30
  table := latinTable
  run := fun _ => .ok ⟨0, printedLines [10, 30, 40], []⟩
  repr := id

/-- The shell is measured with the other process. -/
theorem process_selection_latin :
    Ancestor latinTable 30 10 ∧
      getPids latinHost 7 ⟨10, by decide, none, some ['c', 'p', 'u'], .inl rfl⟩ =
        .done [['1', '0'], ['4', '0']] ∧
      ¬ SelectsOthers latinTable 30 := by
  have hancestor : Ancestor latinTable 30 10 := ⟨2, by decide⟩
  have hloop : ancestorPids latinTable 30 7 = .done [['2', '0'], ['3', '0']] := by
    decide +kernel
  refine ⟨hancestor, by decide +kernel, ?_⟩
  rintro ⟨excluded, hmem, hall⟩
  have h := (hall 7 (by decide)).1
  rw [hloop] at h
  cases h
  have hten : str (10 : Nat) ∈ [['2', '0'], ['3', '0']] := (hmem _).2 ⟨10, hancestor, rfl⟩
  revert hten
  decide

end MmMem

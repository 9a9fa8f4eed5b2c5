import MmMem.HugePageSetup
import Mathlib.Data.List.Sort

namespace MmMem
open Prog
set_option autoImplicit true

inductive HugePageAction where
  | check
  | setup
  | clear
  deriving Repr, DecidableEq

/-- What `init_parser` of `config_huge_page.py` and the check of `main` after it accept. -/
structure HugePageArgs where
  action : Option HugePageAction
  dropCaches : Bool
  compact : Bool
  accepted : (dropCaches || compact) = true → action = some .setup

/-- `check_huge_pages`: the counts it can read. -/
def checkHugePages (env : Env HostPath) (nodes : List NumaNode) :
    Program HostPath (List ((Nat × Nat) × Int)) := do
  boundary env
  Script.collect ((hugePagePaths nodes).insertionSort fun x y =>
      x.1.1 < y.1.1 ∨ x.1.1 = y.1.1 ∧ x.1.2 ≤ y.1.2) fun entry =>
    Script.tryExcept
      (do
        let count ← readInt env entry.2
        return some (entry.1, count))
      fun
        | .error .osError _ => some (return none)
        | .error .valueError _ => some (return none)
        | _ => none

/-- One trip of the loop of `clear_huge_pages`. -/
def clearPool (env : Env HostPath) (t : Transaction) (size : Nat)
    (entry : (Nat × Nat) × HostPath) : Program HostPath Unit := do
  boundary env
  Script.whenever (entry.1.2 == size) (KernelSettings.set env t entry.2 0)

def clearHugePages (env : Env HostPath) (t : Transaction) (nodes : List NumaNode) :
    Program HostPath Unit := do
  boundary env
  let size := pickHugePageSize nodes (getMemInfo nodes)
  if size = 0 then
    Script.raise (.error .runtimeError "No supported huge-page size found")
  else Script.forEach (hugePagePaths nodes) (clearPool env t size)

/-- The `except BaseException` clause of `main`. -/
def undoChanges (env : Env HostPath) (e : Exn) : Program HostPath Unit := do
  Script.modify fun w => { w with phase := .cleanup, step := 0 }
  boundary env
  KernelSettings.restore env .hugeSettings
  Script.raise e

/-- The `try` statement of `main`, with the report after it. -/
def attempt (env : Env HostPath) (m : Machine) (action : Program HostPath Unit) :
    Program HostPath Unit := do
  Script.tryExcept
    (do
      action
      boundary env)
    fun e => some (undoChanges env e)
  Script.modify fun w => { w with phase := .cleanup, step := 0 }
  let _ ← checkHugePages env m.nodes
  return

/-- The part of `main` that changes pools; its only `KernelSettings` object is `hugeSettings`. -/
def changePools (env : Env HostPath) (m : Machine) (action : Program HostPath Unit) :
    Program HostPath Unit := do
  boundary env
  let privilege ← privilegePrefix m
  boundary env
  Script.modify fun w => w.withHost (.fresh w.host.files privilege)
  Script.modify fun w => { w with phase := .body, step := 0 }
  attempt env m action

/-- `main` of `config_huge_page.py` -/
def configHugePage (env : Env HostPath) (m : Machine) (args : HugePageArgs) :
    Program HostPath Unit := do
  let _ ← checkHugePages env m.nodes
  match args.action with
  | some .setup => changePools env m do
    let _ ← setupHugePages env .hugeSettings m.nodes args.dropCaches args.compact
    return
  | some .clear => changePools env m (clearHugePages env .hugeSettings m.nodes)
  | _ => return

/-- The start of the script: it turns SIGINT into an exception, and a run that SIGTERM kills is
none of these. -/
def World.scriptStart (files : HostPath → Int) : World HostPath :=
  { World.start files with ignored := fun s => s == .sigterm }

variable {env : Env HostPath} {m : Machine} {nodes : List NumaNode} {f : HostPath → Int}
  {t : Transaction} {I : World HostPath → Prop}

theorem checkHugePages_keeps (hI : Frame I) : Script.Keeps I (checkHugePages env nodes) := by
  apply (boundary_keeps hI).bind
  intro _
  apply Script.Keeps.collect
  intro entry _
  apply Script.Keeps.tryExcept ((readInt_keeps hI _).bind fun _ => Script.Keeps.pure I _)
  intro e k hk
  split at hk
  · cases hk
    exact Script.Keeps.pure I _
  · cases hk
    exact Script.Keeps.pure I _
  · cases hk

theorem checkHugePages_completes (hI : Frame I) (ho : ∀ w, I w → Obliging env w) :
    Script.Completes I (checkHugePages env nodes) := by
  apply (hI.boundary_completes ho).bind
  intro _
  apply Script.Completes.collect
  intro entry _
  apply Script.Meets.tryExcept (E := fun _ _ => False)
  · exact (hI.readInt_completes ho).bind fun _ => Script.Completes.pure I _
  · exact fun _ _ _ _ h => h.elim
  · exact fun _ _ _ h => h.elim

/-- Without access nothing is written. -/
def Denied (f : HostPath → Int) (h : Host HostPath) : Prop :=
  (∀ t, (h.transaction t).privilege = none) ∧ h.files = f

/-- Every file can be brought back to these values, with the access there is. -/
def Undoable (f : HostPath → Int) (h : Host HostPath) : Prop :=
  (∀ t, (h.transaction t).privilege ≠ none) ∧ Recoverable HostPath.owner f h

theorem Denied.blindAt (f : HostPath → Int) (t : Transaction) (p : HostPath) :
    BlindAt env t p (OnHost (Denied f)) where
  toFrameAt := (Frame.onHost _).at p
  write v := by
    apply (boundary_keeps (.onHost _)).bind
    intro _
    apply Script.Meets.get_bind
    intro w hw
    rw [hw.1 t]
    exact hw
  setOriginal w o hw := ⟨fun s => (Host.setOriginal_privilege ..).trans (hw.1 s), hw.2⟩

theorem Granted.blindAt (t : Transaction) (p : HostPath) :
    BlindAt env t p (OnHost fun h => ∀ s, (h.transaction s).privilege ≠ none) where
  toFrameAt := (Frame.onHost _).at p
  write v := ((Frame.onHost _).at p).write fun _ _ hw => hw
  setOriginal w o hw s := by
    rw [World.withHost_host, Host.setOriginal_privilege]
    exact hw s

theorem Denied.configures (env : Env HostPath) (f : HostPath → Int) :
    Configures env (fun _ => True) (OnHost (Denied f)) :=
  .of_blindAt (Denied.blindAt f) fun _ _ hw => hw

theorem Undoable.configures (env : Env HostPath) (f : HostPath → Int) :
    Configures env (fun _ => True) (OnHost (Undoable f)) :=
  (Configures.of_blindAt Granted.blindAt fun _ _ hw => hw).and
    (Steady.recoverable env f).configures

theorem Configures.clearHugePages (hI : Configures env may I) (hmay : may .hugeSettings)
    (nodes : List NumaNode) : Script.Keeps I (clearHugePages env .hugeSettings nodes) := by
  apply hI.boundary.bind
  intro _
  dsimp only
  split
  · exact Script.Keeps.raise I _
  apply Script.Keeps.forEach
  rintro ⟨⟨nid, size⟩, path⟩ hentry
  obtain ⟨rfl, -⟩ := mem_hugePagePaths.1 hentry
  apply hI.boundary.bind
  intro _
  exact Script.Keeps.whenever fun _ => hI.set _ _ _ hmay rfl

/-- What a trip of the loop of `clear_huge_pages` makes of the files. -/
def emptied (size : Nat) (files : HostPath → Int) (entry : (Nat × Nat) × HostPath) :
    HostPath → Int :=
  if entry.1.2 = size then Function.update files entry.2 0 else files

theorem emptied_apply (size : Nat) (files : HostPath → Int) (entry : (Nat × Nat) × HostPath)
    (p : HostPath) :
    emptied size files entry p = if entry.1.2 = size ∧ entry.2 = p then 0 else files p := by
  by_cases hs : entry.1.2 = size
  · by_cases hp : entry.2 = p
    · rw [emptied, if_pos hs, if_pos ⟨hs, hp⟩, hp, Function.update_self]
    · rw [emptied, if_pos hs, if_neg fun h => hp h.2, Function.update_of_ne (Ne.symm hp)]
  · rw [emptied, if_neg hs, if_neg fun h => hs h.1]

theorem emptied_all (size : Nat) (l : List ((Nat × Nat) × HostPath)) (files : HostPath → Int)
    (p : HostPath) : l.foldl (emptied size) files p =
      if ∃ entry ∈ l, entry.1.2 = size ∧ entry.2 = p then 0 else files p := by
  induction l generalizing files with
  | nil => simp only [List.foldl_nil, List.not_mem_nil, false_and, exists_false, if_false]
  | cons entry l ih =>
    rw [List.foldl_cons, ih, emptied_apply]
    simp only [List.exists_mem_cons_iff]
    split
    · next h => rw [if_pos (.inr h)]
    · next h => simp only [h, or_false]

theorem clearPool_files (size : Nat) (f : HostPath → Int) (entry : (Nat × Nat) × HostPath) :
    Script.Ensures (OnHost fun h => h.files = f) (clearPool env t size entry)
      fun _ => OnHost fun h => h.files = emptied size f entry := by
  apply (boundary_keeps (.onHost _)).ensures.bind
  intro _
  by_cases hs : entry.1.2 = size
  · rw [emptied, if_pos hs, Script.whenever, if_pos (beq_iff_eq.2 hs)]
    exact set_files f
  · rw [emptied, if_neg hs, Script.whenever, if_neg fun h => hs (beq_iff_eq.1 h)]
    exact Script.Ensures.pure fun _ hw => hw

theorem clearHugePages_files (nodes : List NumaNode) (f : HostPath → Int) :
    Script.Ensures (OnHost fun h => h.files = f) (clearHugePages env t nodes)
      fun _ w => pickHugePageSize nodes (getMemInfo nodes) ≠ 0 ∧ w.host.files =
        (hugePagePaths nodes).foldl (emptied (pickHugePageSize nodes (getMemInfo nodes))) f := by
  apply (boundary_keeps (.onHost _)).ensures.bind
  intro _
  dsimp only
  split
  · exact Script.Ensures.raise
  next hsize =>
  apply (forEach_files (clearPool_files _) (hugePagePaths nodes) f).mono
  · exact fun _ hw => hw
  · exact fun _ _ hw => ⟨hsize, hw⟩

/-- The pools of size `s` are empty on every node, and nothing else has changed. -/
structure Cleared (nodes : List NumaNode) (s : Nat) (before after : HostPath → Int) : Prop where
  target : ∀ node ∈ nodes, s ∈ node.hugePageSizes → after (.nrHugepages node.nid s) = 0
  others : ∀ p, (∀ node ∈ nodes, s ∈ node.hugePageSizes → p ≠ .nrHugepages node.nid s) →
    after p = before p

theorem Cleared.of_emptied (nodes : List NumaNode) (s : Nat) (before : HostPath → Int) :
    Cleared nodes s before ((hugePagePaths nodes).foldl (emptied s) before) where
  target node hnode hs := by
    rw [emptied_all, if_pos]
    exact ⟨_, mem_hugePagePaths.2 ⟨rfl, node, hnode, rfl, hs⟩, rfl, rfl⟩
  others p hp := by
    rw [emptied_all, if_neg]
    rintro ⟨⟨⟨nid, size⟩, path⟩, hentry, rfl, rfl⟩
    obtain ⟨rfl, node, hnode, rfl, hs⟩ := mem_hugePagePaths.1 hentry
    exact hp node hnode hs rfl

/-- What the action the script was called with leaves in the files. -/
def Achieved (nodes : List NumaNode) (args : HugePageArgs) (before after : HostPath → Int) :
    Prop :=
  match args.action with
  | some .setup => ∃ s, (Offered nodes s ∧ ∀ s', Offered nodes s' → s' ≤ s) ∧
      Provisioned nodes s args.dropCaches args.compact before after
  | some .clear => ∃ s, (Offered nodes s ∧ ∀ s', Offered nodes s' → s' ≤ s) ∧
      Cleared nodes s before after
  | _ => after = before

/-- Once the `try` statement is left by an exception or passed, nothing goes wrong any more. -/
def Dependable (env : Env HostPath) : Prop :=
  ∀ k, env.signals .cleanup k = [] ∧ env.readFails .cleanup k = none ∧
    env.writes .cleanup k = .takes

theorem Dependable.obliging (h : Dependable env) {w : World HostPath} (hw : w.phase = .cleanup) :
    Obliging env w where
  uninterrupted k := by
    rw [interruptedAt, hw, (h k).1]
    rfl
  reads k := hw ▸ (h k).2.1
  writes k := hw ▸ (h k).2.2

theorem Denied.undoChanges (env : Env HostPath) (e : Exn) :
    Script.Meets (OnHost (Denied f)) (undoChanges env e) (fun _ _ => False)
      fun _ => OnHost (Denied f) := by
  have hconf := Denied.configures env f
  apply Script.Meets.bind (Q := fun _ => OnHost (Denied f))
  · exact Script.Meets.modify fun _ hw => hw
  intro _
  apply hconf.boundary.bind_meets fun _ _ hw => hw
  intro _
  apply (hconf.restore .hugeSettings).bind_meets fun _ _ hw => hw
  intro _
  exact Script.Meets.raise fun _ hw => hw

/-- The files `KernelSettings` objects of the script own hold these values. -/
def PoolsAt (f : HostPath → Int) (w : World HostPath) : Prop :=
  ∀ nid size, w.host.files (.nrHugepages nid size) = f (.nrHugepages nid size)

/-- The `except` clause brings back every file the transaction may have changed. -/
theorem Undoable.undoChanges (henv : Dependable env) (e : Exn) :
    Script.Meets (OnHost (Undoable f)) (undoChanges env e) (fun _ _ => False)
      fun _ => PoolsAt f := by
  apply Script.Meets.bind (Q := fun _ w => Undoable f w.host ∧ w.phase = .cleanup)
  · exact Script.Meets.modify fun w hw => ⟨hw, rfl⟩
  intro _ w hw
  obtain ⟨⟨hgranted, hr⟩, hphase⟩ := hw
  rw [Script.bind_ok _ (boundary_ok (henv.obliging hphase).uninterrupted)]
  have hable : Able env .hugeSettings { w with step := w.step + 1 } :=
    ⟨henv.obliging hphase, hgranted .hugeSettings⟩
  obtain ⟨w', heq, hback⟩ := hable.restore_brings hr
  rw [Script.bind_ok _ heq]
  exact fun nid size => hback _ rfl

theorem attempt_meets (henv : Dependable env) {action : Program HostPath Unit}
    {Done : (HostPath → Int) → Prop} {J : Host HostPath → Prop}
    (hdone : Script.Ensures (OnHost fun h => h.files = f) action
      fun _ => OnHost fun h => Done h.files)
    (hkeeps : Script.Keeps (OnHost J) action)
    (hundo : ∀ e, Script.Meets (OnHost J) (undoChanges env e) (fun _ _ => False)
      fun _ => PoolsAt f) :
    Script.Meets (OnHost fun h => h.files = f ∧ J h) (attempt env m action)
      (fun _ => OnHost fun h => Done h.files) fun _ => PoolsAt f := by
  apply Script.Meets.bind (Q := fun _ => OnHost fun h => Done h.files)
  · apply Script.Meets.tryExcept (E := fun _ => OnHost J)
    · apply Script.Meets.bind (Q := fun _ => OnHost fun h => Done h.files ∧ J h)
      · apply (hdone.and hkeeps).mono
        · exact fun _ hw => hw
        · exact fun _ _ hw => hw
        · exact fun _ _ hw => hw.2
      intro _
      apply (boundary_keeps (.onHost fun h => Done h.files ∧ J h)).mono
      · exact fun _ hw => hw
      · exact fun _ _ hw => hw.1
      · exact fun _ _ hw => hw.2
    · intro e k hk
      cases hk
      exact (hundo e).mono (fun _ hw => hw) (fun _ _ => False.elim) fun _ _ hw => hw
    · exact fun _ h => nomatch h
  intro _
  apply Script.Meets.bind (Q := fun _ w => Done w.host.files ∧ Obliging env w)
  · exact Script.Meets.modify fun w hw => ⟨hw, henv.obliging rfl⟩
  intro _
  have hframe : Frame fun w : World HostPath => Done w.host.files ∧ Obliging env w :=
    ⟨fun w n hw => ⟨hw.1, Obliging.hostBlind.step w n hw.2⟩,
      fun w e hw => ⟨hw.1, Obliging.hostBlind.record w e hw.2⟩⟩
  apply (checkHugePages_completes hframe fun _ hw => hw.2).bind
  exact fun _ => Script.Meets.pure fun _ hw => hw.1

theorem privilegePrefix_keeps (hI : Frame I) : Script.Keeps I (privilegePrefix m) := by
  rw [privilegePrefix]
  split
  · exact Script.Keeps.pure I _
  split
  · apply (record_keeps hI _).bind
    intro _
    split
    · exact Script.Keeps.pure I _
    · exact Script.Keeps.pure I _
  · exact Script.Keeps.pure I _

/-- Whatever happens to an action, it is carried out or undone. -/
theorem changePools_meets (henv : Dependable env) {action : Program HostPath Unit}
    {Done : (HostPath → Int) → Prop}
    (hdone : Script.Ensures (OnHost fun h => h.files = f) action
      fun _ => OnHost fun h => Done h.files)
    (hkeeps : ∀ I, Configures env (fun _ => True) I → Script.Keeps I action) :
    Script.Meets (OnHost fun h => h.files = f) (changePools env m action)
      (fun _ => OnHost fun h => Done h.files) fun _ => PoolsAt f := by
  have hsame : Script.Keeps (OnHost fun h : Host HostPath => h.files = f) (boundary env) :=
    boundary_keeps (.onHost _)
  have hraise : ∀ (e : Exn) (w : World HostPath), w.host.files = f → PoolsAt f w :=
    fun _ _ hw nid size => congrFun hw _
  apply hsame.bind_meets hraise
  intro _
  apply (privilegePrefix_keeps (.onHost _)).bind_meets hraise
  intro privilege
  apply hsame.bind_meets hraise
  intro _
  apply Script.Meets.bind (Q := fun _ => OnHost fun h => h = .fresh f privilege)
  · exact Script.Meets.modify fun w hw => congrArg (Host.fresh · privilege) hw
  intro _
  apply Script.Meets.bind (Q := fun _ => OnHost fun h => h = .fresh f privilege)
  · exact Script.Meets.modify fun _ hw => hw
  intro _
  cases privilege with
  | none =>
    have hdenied := hkeeps _ (Denied.configures env f)
    refine (attempt_meets (J := Denied f) henv hdone hdenied fun e => ?_).mono
      (fun w hw => ?_) (fun _ _ hw => hw) fun _ _ hw => hw
    · exact (Denied.undoChanges env e).mono_raises fun _ _ hw nid size => congrFun hw.2 _
    · rw [OnHost, show w.host = _ from hw]
      exact ⟨rfl, fun _ => rfl, rfl⟩
  | some privilege =>
    have hundoable := hkeeps _ (Undoable.configures env f)
    refine (attempt_meets (J := Undoable f) henv hdone hundoable fun e => ?_).mono
      (fun w hw => ?_) (fun _ _ hw => hw) fun _ _ hw => hw
    · exact Undoable.undoChanges henv e
    · rw [OnHost, show w.host = _ from hw]
      refine ⟨rfl, fun _ h => ?_, .fresh ..⟩
      cases h

theorem pick_largest (hids : DistinctIds nodes)
    (h : pickHugePageSize nodes (getMemInfo nodes) ≠ 0) :
    Offered nodes (pickHugePageSize nodes (getMemInfo nodes)) ∧
      ∀ s, Offered nodes s → s ≤ pickHugePageSize nodes (getMemInfo nodes) :=
  ((pickHugePageSize_spec hids).resolve_left fun hzero => h hzero.1).2

theorem setup_achieves (hids : DistinctIds nodes) {args : HugePageArgs}
    (haction : args.action = some .setup) (f : HostPath → Int) :
    Script.Ensures (OnHost fun h => h.files = f)
      (do let _ ← setupHugePages env .hugeSettings nodes args.dropCaches args.compact; return)
      fun _ => OnHost fun h => Achieved nodes args f h.files := by
  apply (setupHugePages_files env .hugeSettings nodes args.dropCaches args.compact f).bind
  intro size
  apply Script.Ensures.pure
  rintro w ⟨rfl, hsize, f', hagree, hafter⟩
  have hlargest := pick_largest hids hsize
  simp only [OnHost, Achieved, haction]
  exact ⟨_, hlargest, .of_reserve hids hlargest.1 hagree hafter⟩

theorem clear_achieves (hids : DistinctIds nodes) {args : HugePageArgs}
    (haction : args.action = some .clear) (f : HostPath → Int) :
    Script.Ensures (OnHost fun h => h.files = f) (clearHugePages env .hugeSettings nodes)
      fun _ => OnHost fun h => Achieved nodes args f h.files := by
  apply (clearHugePages_files nodes f).mono
  · exact fun _ hw => hw
  · rintro _ w ⟨hsize, hafter⟩
    simp only [OnHost, Achieved, haction]
    exact ⟨_, pick_largest hids hsize, hafter ▸ .of_emptied nodes _ f⟩

theorem configHugePage_meets (henv : Dependable env) (hids : DistinctIds m.nodes)
    (args : HugePageArgs) (f : HostPath → Int) :
    Script.Meets (OnHost fun h => h.files = f) (configHugePage env m args)
      (fun _ => OnHost fun h => Achieved m.nodes args f h.files) fun _ => PoolsAt f := by
  apply (checkHugePages_keeps (.onHost _)).bind_meets fun _ _ hw nid size => congrFun hw _
  intro _
  cases haction : args.action with
  | none => exact Script.Meets.pure fun w hw => by simpa only [Achieved, haction] using hw
  | some action =>
    cases action with
    | check => exact Script.Meets.pure fun w hw => by simpa only [Achieved, haction] using hw
    | setup =>
      apply changePools_meets henv (setup_achieves hids haction f)
      intro I hI
      exact (hI.setupHugePages trivial _ _ _).bind fun _ => Script.Keeps.pure I ()
    | clear =>
      exact changePools_meets henv (clear_achieves hids haction f)
        fun I hI => hI.clearHugePages trivial _

/-- The script either does what it was called for or raises with every pool as it was, as long as
nothing goes wrong after its action. -/
theorem config_huge_page_all_or_nothing (env : Env HostPath) (m : Machine) (args : HugePageArgs)
    (files : HostPath → Int) (henv : Dependable env) (hids : DistinctIds m.nodes) :
    let r := configHugePage env m args (.scriptStart files)
    (r.1 = .ok () ∧ Achieved m.nodes args files r.2.host.files) ∨
      ((∃ e, r.1 = .error e) ∧ ∀ nid size,
        r.2.host.files (.nrHugepages nid size) = files (.nrHugepages nid size)) := by
  intro r
  have hpost := configHugePage_meets henv hids args files (.scriptStart files) rfl
  change Script.Post _ _ r at hpost
  obtain ⟨o, w⟩ := r
  cases o with
  | ok u => exact .inl ⟨rfl, hpost⟩
  | error e => exact .inr ⟨⟨e, rfl⟩, hpost⟩

/-- The second of two pools takes too little while they are cleared. -/
theorem clear_undone_at_second_pool :
    let env : Env HostPath := ⟨fun _ _ => [], fun _ _ => none,
      fun phase k => if phase = .body ∧ 10 < k then .clamps 3 else .takes,
      fun _ _ => none, fun _ => "nr_hugepages"⟩
    let m : Machine := ⟨true, true, false, false, 8, fun _ => true, id,
      [⟨2, some 4194304, [2048]⟩, ⟨7, some 4194304, [2048]⟩]⟩
    let files : HostPath → Int := fun p => if p = .nrHugepages 2 2048 then 2048 else 5
    let r := configHugePage env m ⟨some .clear, false, false, nofun⟩ (.scriptStart files)
    (∃ e, r.1 = .error e) ∧ r.2.host.files (.nrHugepages 2 2048) = 2048 ∧
      r.2.host.files (.nrHugepages 7 2048) = 5 := by
  intro env m files r
  have hids : DistinctIds m.nodes := show [2, 7].Nodup by decide
  have hraised : r.1.isOk = false := by decide +kernel
  have hmain := config_huge_page_all_or_nothing env m ⟨some .clear, false, false, nofun⟩ files
    (fun _ => ⟨rfl, rfl, rfl⟩) hids
  have hr : configHugePage env m ⟨some .clear, false, false, nofun⟩ (.scriptStart files) = r := rfl
  simp only [hr] at hmain
  clear_value r
  rcases hmain with ⟨hok, -⟩ | ⟨herror, hback⟩
  · rw [hok] at hraised
    cases hraised
  · exact ⟨herror, hback 2 2048, hback 7 2048⟩

end MmMem

import MmMem.Library.FallibleScript
import Mathlib.Data.List.Basic

namespace Prog
set_option autoImplicit true

/-- A process that has been started: what it does, and what its `Popen` object knows of it. -/
structure Child where
  command : List (List Char)
  /-- its exit status, once it has exited -/
  exited : Option Int
  /-- its exit status, once it has been waited for -/
  returncode : Option Int
  reaped : returncode = none ∨ returncode = exited
  /-- whether its pipe is open, if it has one -/
  stdout : Option Bool

namespace Child

/-- A process that still runs exits. -/
def exit (status : Int) (c : Child) : Child :=
  { c with
    exited := some (c.exited.getD status)
    reaped := by
      rcases c.reaped with h | h
      · exact .inl h
      · cases he : c.exited with
        | none => exact .inl (h.trans he)
        | some v => exact .inr (h.trans he) }

/-- A process that has exited has been waited for. -/
def reap (c : Child) : Child := { c with returncode := c.exited, reaped := .inr rfl }

def close (c : Child) : Child := { c with stdout := c.stdout.map fun _ => false }

/-- What a process does not lose. -/
structure Later (c c' : Child) : Prop where
  command : c'.command = c.command
  exited : ∀ v, c.exited = some v → c'.exited = some v
  returncode : ∀ v, c.returncode = some v → c'.returncode = some v
  closed : c.stdout ≠ some true → c'.stdout ≠ some true

theorem Later.refl (c : Child) : Later c c := ⟨rfl, fun _ h => h, fun _ h => h, fun h => h⟩

theorem Later.trans (h : Later a b) (h' : Later b c) : Later a c :=
  ⟨h'.command.trans h.command, fun v hv => h'.exited v (h.exited v hv),
    fun v hv => h'.returncode v (h.returncode v hv), fun hc => h'.closed (h.closed hc)⟩

theorem exited_of_returncode {c : Child} (h : c.returncode = some v) : c.exited = some v := by
  rcases c.reaped with hr | hr
  · cases h.symm.trans hr
  · exact hr.symm.trans h

theorem later_exit (status : Int) (c : Child) : Later c (c.exit status) where
  command := rfl
  exited v h := by
    change some (c.exited.getD status) = some v
    rw [h, Option.getD_some]
  returncode _ h := h
  closed h := h

theorem later_reap (c : Child) : Later c c.reap where
  command := rfl
  exited _ h := h
  returncode _ h := exited_of_returncode h
  closed h := h

theorem later_close (c : Child) : Later c c.close where
  command := rfl
  exited _ h := h
  returncode _ h := h
  closed _ := by
    rw [close]
    cases c.stdout with
    | none => nofun
    | some b => nofun

theorem stdout_close (c : Child) : c.close.stdout ≠ some true := by
  rw [close]
  cases c.stdout with
  | none => nofun
  | some b => nofun

end Child

/-- The statements about processes, in the order they are reached. -/
inductive ProcEvent (ε : Type) where
  | started (command : List (List Char))
  | raised (e : ε)
  | waits (i : Nat)
  | reads (i : Nat)
  | polls (i : Nat)
  | terminates (i : Nat)
  | kills (i : Nat)
  | closes (i : Nat)
  | prints (text : List Char)
  | reports (text : List Char)

/-- The processes a script has started, and the variables of the script that outlive its
exceptions. -/
structure Procs (ε τ : Type) where
  children : List Child
  trace : List (ProcEvent ε)
  locals : τ

/-- What happens outside the script, by the number of the statement and the process. -/
structure ProcHost (ε : Type) where
  /-- the statement raises -/
  raises : Nat → Option ε
  /-- the process has exited by the time of the statement -/
  exits : Nat → Nat → Option Int
  /-- the status with which it exits while the statement waits for it -/
  status : Nat → Nat → Int
  /-- the timeout of the statement comes first -/
  timesOut : Nat → Bool
  /-- the statement, though it raises, has waited for the process -/
  reaps : Nat → Bool
  /-- and has closed its pipe -/
  closes : Nat → Bool
  /-- what it reads from the pipe -/
  output : Nat → Nat → List Char

/-- The commands that have been started. -/
def startedIn (trace : List (ProcEvent ε)) : List (List (List Char)) :=
  trace.filterMap fun
    | .started command => some command
    | _ => none

section Statements

variable {ε τ : Type} (host : ProcHost ε)

/-- The processes that exit before statement `n`. -/
def settle (n i : Nat) (c : Child) : Child :=
  match host.exits n i with
  | some status => c.exit status
  | none => c

/-- A statement begins, and raises after having done some of its work, or goes on. -/
def statement (event : ProcEvent ε) (partway : Nat → Nat → Child → Child) :
    Script ε (Procs ε τ) Nat := fun s =>
  let n := s.trace.length
  let children := s.children.mapIdx (settle host n)
  match host.raises n with
  | some e =>
    (.error e, ⟨children.mapIdx (partway n), s.trace ++ [event] ++ [.raised e], s.locals⟩)
  | none => (.ok n, ⟨children, s.trace ++ [event], s.locals⟩)

def onChild (i : Nat) (f : Child → Child) : Script ε (Procs ε τ) Unit :=
  Script.modify fun s => { s with children := s.children.modify i f }

/-- The process number `i`, if there is one, meets `p`. -/
def At (i : Nat) (p : Child → Prop) (s : Procs ε τ) : Prop :=
  ∃ c, s.children[i]? = some c ∧ p c

/-- `proc.returncode` -/
def returncode (i : Nat) : Script ε (Procs ε τ) (Option Int) := fun s =>
  (.ok (s.children[i]?.bind (·.returncode)), s)

/-- `proc.stdout is not None` -/
def piped (i : Nat) : Script ε (Procs ε τ) Bool := fun s =>
  (.ok (s.children[i]?.any (·.stdout.isSome)), s)

/-- `subprocess.Popen(command)`, with a pipe for its output or without. -/
def popen (command : List (List Char)) (pipe : Bool) : Script ε (Procs ε τ) Nat := fun s =>
  match host.raises s.trace.length with
  | some e => (.error e, { s with trace := s.trace ++ [.raised e] })
  | none =>
    let stdout := if pipe then some true else none
    (.ok s.children.length,
      { s with
        children := s.children ++ [⟨command, none, none, .inl rfl, stdout⟩]
        trace := s.trace ++ [.started command] })

/-- `proc.poll()` -/
def poll (i : Nat) : Script ε (Procs ε τ) (Option Int) := do
  let _ ← statement host (.polls i) fun _ _ c => c
  onChild i Child.reap
  returncode i

/-- `proc.terminate()`, which a process may ignore. -/
def terminate (i : Nat) : Script ε (Procs ε τ) Unit := do
  let _ ← statement host (.terminates i) fun _ _ c => c
  pure ()

/-- `proc.kill()` -/
def kill (i : Nat) : Script ε (Procs ε τ) Unit := do
  let _ ← statement host (.kills i) fun _ _ c => c
  onChild i (Child.exit (-9))

/-- What an interrupted wait may have done. -/
def waitPartway (i n j : Nat) (c : Child) : Child :=
  if j = i ∧ host.reaps n then c.reap else c

/-- `proc.wait()` -/
def wait (i : Nat) : Script ε (Procs ε τ) (Option Int) := do
  let n ← statement host (.waits i) (waitPartway host i)
  onChild i fun c => (c.exit (host.status n i)).reap
  returncode i

/-- `proc.wait(timeout)` -/
def waitTimeout (timeoutExpired : ε) (i : Nat) : Script ε (Procs ε τ) (Option Int) := do
  let n ← statement host (.waits i) (waitPartway host i)
  let s ← Script.get
  if host.timesOut n ∧ s.children[i]?.bind (·.exited) = none then
    Script.raise timeoutExpired
  else do
    onChild i fun c => (c.exit (host.status n i)).reap
    returncode i

/-- What an interrupted read may have done. -/
def readPartway (i n j : Nat) (c : Child) : Child :=
  let c := waitPartway host i n j c
  if j = i ∧ host.closes n then c.close else c

/-- `proc.communicate()` -/
def communicate (i : Nat) : Script ε (Procs ε τ) (List Char) := do
  let n ← statement host (.reads i) (readPartway host i)
  onChild i fun c => ((c.exit (host.status n i)).reap).close
  pure (host.output n i)

/-- `proc.stdout.close()` -/
def closeStdout (i : Nat) : Script ε (Procs ε τ) Unit := do
  let _ ← statement host (.closes i) fun _ _ c => c
  onChild i Child.close

/-- `print(text, flush=True)` -/
def print (text : List Char) : Script ε (Procs ε τ) Unit := do
  let _ ← statement host (.prints text) fun _ _ c => c
  pure ()

/-- `print(text, file=sys.stderr)` -/
def printError (text : List Char) : Script ε (Procs ε τ) Unit := do
  let _ ← statement host (.reports text) fun _ _ c => c
  pure ()

end Statements

/-- A later state of the same processes: none of them is new, none but they have been waited for,
and nothing of them is lost. -/
structure Onward (s s' : Procs ε τ) : Prop where
  locals : s'.locals = s.locals
  length : s'.children.length = s.children.length
  later : ∀ (i : Nat) (c : Child), s.children[i]? = some c →
    ∃ c', s'.children[i]? = some c' ∧ Child.Later c c'
  trace : ∃ events, s'.trace = s.trace ++ events ∧ startedIn events = [] ∧
    ∀ i, .waits i ∈ events → i < s.children.length

/-- What no statement about the processes makes false, but for starting another one. -/
def Persistent (I : Procs ε τ → Prop) : Prop := ∀ s s', Onward s s' → I s → I s'

def Raised (s : Procs ε τ) : Prop := ∃ e, .raised e ∈ s.trace

variable {ε τ : Type} {host : ProcHost ε} {I : Procs ε τ → Prop} {s s' s₁ s₂ s₃ : Procs ε τ}

theorem Onward.refl (s : Procs ε τ) : Onward s s :=
  ⟨rfl, rfl, fun _ c h => ⟨c, h, .refl c⟩, [], (List.append_nil _).symm, rfl, nofun⟩

theorem startedIn_append (t t' : List (ProcEvent ε)) :
    startedIn (t ++ t') = startedIn t ++ startedIn t' := List.filterMap_append

theorem Onward.trans (h : Onward s₁ s₂) (h' : Onward s₂ s₃) : Onward s₁ s₃ where
  locals := h'.locals.trans h.locals
  length := h'.length.trans h.length
  later i c hc := by
    obtain ⟨c₂, hc₂, hlater⟩ := h.later i c hc
    obtain ⟨c₃, hc₃, hlater'⟩ := h'.later i c₂ hc₂
    exact ⟨c₃, hc₃, hlater.trans hlater'⟩
  trace := by
    obtain ⟨events, ht, hnone, hwaits⟩ := h.trace
    obtain ⟨events', ht', hnone', hwaits'⟩ := h'.trace
    refine ⟨events ++ events', ?_, ?_, fun i hi => ?_⟩
    · rw [ht', ht, List.append_assoc]
    · rw [startedIn_append, hnone, hnone']
      rfl
    · rcases List.mem_append.1 hi with hi | hi
      · exact hwaits i hi
      · exact h.length ▸ hwaits' i hi

theorem Onward.mapIdx {f : Nat → Child → Child} {events : List (ProcEvent ε)}
    (hf : ∀ i c, Child.Later c (f i c)) (hevents : startedIn events = [])
    (hwaits : ∀ i, .waits i ∈ events → i < s.children.length) :
    Onward s ⟨s.children.mapIdx f, s.trace ++ events, s.locals⟩ where
  locals := rfl
  length := List.length_mapIdx
  later i c hc := ⟨f i c, by rw [List.getElem?_mapIdx, hc, Option.map_some], hf i c⟩
  trace := ⟨events, rfl, hevents, hwaits⟩

theorem Onward.modify {f : Child → Child} (hf : ∀ c, Child.Later c (f c)) :
    Onward s { s with children := s.children.modify i f } where
  locals := rfl
  length := List.length_modify ..
  later j c hc := by
    refine ⟨if i = j then f c else c, ?_, ?_⟩
    · rw [List.getElem?_modify, hc]
      rfl
    · split
      · exact hf c
      · exact .refl c
  trace := ⟨[], (List.append_nil _).symm, rfl, nofun⟩

theorem Onward.commands (h : Onward s s') :
    s'.children.map (·.command) = s.children.map (·.command) := by
  apply List.ext_getElem?
  intro i
  rw [List.getElem?_map, List.getElem?_map]
  cases hc : s.children[i]? with
  | some c =>
    obtain ⟨c', hc', hlater⟩ := h.later i c hc
    rw [hc', Option.map_some, Option.map_some, hlater.command]
  | none =>
    have hlength := h.length
    rw [List.getElem?_eq_none_iff] at hc
    rw [List.getElem?_eq_none (by omega)]

theorem Onward.startedIn (h : Onward s s') : startedIn s'.trace = Prog.startedIn s.trace := by
  obtain ⟨events, ht, hnone, -⟩ := h.trace
  rw [ht, startedIn_append, hnone, List.append_nil]

theorem Persistent.and {J : Procs ε τ → Prop} (hI : Persistent I) (hJ : Persistent J) :
    Persistent fun s => I s ∧ J s :=
  fun s s' h hs => ⟨hI s s' h hs.1, hJ s s' h hs.2⟩

theorem persistent_raised : Persistent (Raised : Procs ε τ → Prop) := by
  rintro s s' h ⟨e, he⟩
  obtain ⟨events, ht, -⟩ := h.trace
  exact ⟨e, ht ▸ List.mem_append_left events he⟩

theorem persistent_at {p : Child → Prop} (hp : ∀ c c', Child.Later c c' → p c → p c') (i : Nat) :
    Persistent (At i p : Procs ε τ → Prop) := by
  rintro s s' h ⟨c, hc, hpc⟩
  obtain ⟨c', hc', hlater⟩ := h.later i c hc
  exact ⟨c', hc', hp c c' hlater hpc⟩

theorem persistent_lt (i : Nat) : Persistent fun s : Procs ε τ => i < s.children.length :=
  fun _ _ h hi => Nat.lt_of_lt_of_eq hi h.length.symm

theorem later_settle (n i : Nat) (c : Child) : Child.Later c (settle host n i c) := by
  rw [settle]
  split
  · exact c.later_exit _
  · exact .refl c

/-- A statement raises, and then that is on record, or goes on. -/
theorem statement_meets {event : ProcEvent ε} {partway : Nat → Nat → Child → Child}
    (hI : Persistent I) (hevent : startedIn [event] = [])
    (hwaits : ∀ s, I s → ∀ i, event = .waits i → i < s.children.length)
    (hpart : ∀ n i c, Child.Later c (partway n i c)) :
    Script.Meets I (statement host event partway) (fun _ => I) fun _ s => I s ∧ Raised s := by
  intro s hs
  have hbegun : Onward s ⟨s.children.mapIdx (settle host s.trace.length), s.trace ++ [event],
      s.locals⟩ := .mapIdx (later_settle s.trace.length) hevent fun i hi =>
        hwaits s hs i (List.mem_singleton.1 hi).symm
  rw [statement]
  cases hraises : host.raises s.trace.length with
  | none => exact hI s _ hbegun hs
  | some e =>
    refine ⟨hI s _ (hbegun.trans (.mapIdx (hpart _) ?_ ?_)) hs, e, ?_⟩
    · rfl
    · exact fun i hi => nomatch List.mem_singleton.1 hi
    · exact List.mem_append_right _ List.mem_cons_self

theorem onChild_meets {i : Nat} {f : Child → Child} {p : Child → Prop} {E : ε → Procs ε τ → Prop}
    (hI : Persistent I) (hf : ∀ c, Child.Later c (f c)) (hp : ∀ c, p (f c)) :
    Script.Meets (fun s => I s ∧ i < s.children.length) (onChild i f)
      (fun _ s => I s ∧ At i p s) E := by
  rintro s ⟨hs, hi⟩
  refine ⟨hI s _ (.modify hf) hs, f s.children[i], ?_, hp _⟩
  rw [List.getElem?_modify, List.getElem?_eq_getElem hi]
  exact congrArg some (if_pos rfl)

theorem returncode_meets {i : Nat} {E : ε → Procs ε τ → Prop} :
    Script.Meets (fun s : Procs ε τ => I s ∧ At i (fun c => c.returncode ≠ none) s) (returncode i)
      (fun status s => I s ∧ ∃ v, status = some v ∧ At i (fun c => c.returncode = some v) s)
      E := by
  rintro s ⟨hs, c, hc, hne⟩
  obtain ⟨v, hv⟩ := Option.ne_none_iff_exists'.1 hne
  refine ⟨hs, v, ?_, c, hc, hv⟩
  rw [hc]
  exact hv

theorem later_waitPartway (i n j : Nat) (c : Child) : Child.Later c (waitPartway host i n j c) := by
  rw [waitPartway]
  split
  · exact c.later_reap
  · exact .refl c

theorem later_readPartway (i n j : Nat) (c : Child) : Child.Later c (readPartway host i n j c) := by
  rw [readPartway]
  split
  · exact (later_waitPartway i n j c).trans (Child.later_close _)
  · exact later_waitPartway i n j c

theorem later_ended (status : Int) (c : Child) : Child.Later c (c.exit status).reap :=
  (c.later_exit status).trans (Child.later_reap _)

theorem persistent_returncode (i : Nat) (v : Int) :
    Persistent (At i (fun c => c.returncode = some v) : Procs ε τ → Prop) :=
  persistent_at (fun _ _ h hv => h.returncode v hv) i

theorem persistent_waited (i : Nat) :
    Persistent (At i (fun c => c.returncode ≠ none) : Procs ε τ → Prop) := by
  refine persistent_at (fun c c' h hne => ?_) i
  obtain ⟨v, hv⟩ := Option.ne_none_iff_exists'.1 hne
  rw [h.returncode v hv]
  nofun

theorem persistent_closed (i : Nat) :
    Persistent (At i (fun c => c.stdout ≠ some true) : Procs ε τ → Prop) :=
  persistent_at (fun _ _ h => h.closed) i

theorem statement_plain {event : ProcEvent ε} (hI : Persistent I) (hevent : startedIn [event] = [])
    (hwaits : ∀ i, event ≠ .waits i) :
    Script.Meets I (statement host event (fun _ _ c => c)) (fun _ => I)
      fun _ s => I s ∧ Raised s :=
  statement_meets hI hevent (fun _ _ i he => absurd he (hwaits i)) fun _ _ c => .refl c

theorem print_meets (hI : Persistent I) (text : List Char) :
    Script.Meets I (print host text) (fun _ => I) fun _ s => I s ∧ Raised s :=
  (statement_plain hI rfl (by nofun)).bind fun _ => .pure fun _ hs => hs

theorem printError_meets (hI : Persistent I) (text : List Char) :
    Script.Meets I (printError host text) (fun _ => I) fun _ s => I s ∧ Raised s :=
  (statement_plain hI rfl (by nofun)).bind fun _ => .pure fun _ hs => hs

theorem terminate_meets (hI : Persistent I) (i : Nat) :
    Script.Meets I (terminate host i) (fun _ => I) fun _ s => I s ∧ Raised s :=
  (statement_plain hI rfl (by nofun)).bind fun _ => .pure fun _ hs => hs

theorem poll_meets (hI : Persistent I) (i : Nat) :
    Script.Meets I (poll host i) (fun _ => I) fun _ s => I s ∧ Raised s := by
  apply (statement_plain hI rfl (by nofun)).bind
  intro _ s hs
  exact hI s _ (.modify Child.later_reap) hs

theorem kill_meets (hI : Persistent I) (i : Nat) :
    Script.Meets I (kill host i) (fun _ => I) fun _ s => I s ∧ Raised s := by
  apply (statement_plain hI rfl (by nofun)).bind
  intro _ s hs
  exact hI s _ (.modify (Child.later_exit (-9))) hs

section Known

variable {i : Nat}

/-- What is left of a wait once the process is known to end. -/
theorem ended_meets {E : ε → Procs ε τ → Prop} (hI : Persistent I) (status : Int) :
    Script.Meets (fun s => I s ∧ i < s.children.length)
      (onChild i (fun c => (c.exit status).reap) >>= fun _ => returncode i)
      (fun status s => I s ∧ ∃ v, status = some v ∧ At i (fun c => c.returncode = some v) s) E :=
  (onChild_meets hI (later_ended status) fun _ => nofun).bind fun _ => returncode_meets

theorem waits_lt (s : Procs ε τ) (hs : I s ∧ i < s.children.length) (j : Nat)
    (he : (.waits i : ProcEvent ε) = .waits j) : j < s.children.length := by
  cases he
  exact hs.2

theorem statement_known {event : ProcEvent ε} {partway : Nat → Nat → Child → Child}
    (hI : Persistent I) (hevent : startedIn [event] = [])
    (hwaits : ∀ s, (I s ∧ i < s.children.length) → ∀ j, event = .waits j → j < s.children.length)
    (hpart : ∀ n j c, Child.Later c (partway n j c)) :
    Script.Meets (fun s => I s ∧ i < s.children.length) (statement host event partway)
      (fun _ s => I s ∧ i < s.children.length) fun _ s => I s ∧ Raised s :=
  (statement_meets (hI.and (persistent_lt i)) hevent hwaits hpart).mono_raises
    fun _ _ hs => ⟨hs.1.1, hs.2⟩

theorem wait_meets (hI : Persistent I) :
    Script.Meets (fun s => I s ∧ i < s.children.length) (wait host i)
      (fun status s => I s ∧ ∃ v, status = some v ∧ At i (fun c => c.returncode = some v) s)
      fun _ s => I s ∧ Raised s :=
  (statement_known hI rfl waits_lt (later_waitPartway i)).bind fun n =>
    ended_meets hI (host.status n i)

theorem waitTimeout_meets (hI : Persistent I) (timeoutExpired : ε) :
    Script.Meets (fun s => I s ∧ i < s.children.length) (waitTimeout host timeoutExpired i)
      (fun status s => I s ∧ ∃ v, status = some v ∧ At i (fun c => c.returncode = some v) s)
      fun e s => (I s ∧ i < s.children.length) ∧ (e = timeoutExpired ∨ Raised s) := by
  have hlt := hI.and (persistent_lt i)
  apply ((statement_meets hlt rfl waits_lt (later_waitPartway i)).mono_raises
    fun _ _ hs => ⟨hs.1, .inr hs.2⟩).bind
  intro n
  apply Script.Meets.get_bind
  intro s hs
  split
  · exact ⟨hs, .inl rfl⟩
  · exact ended_meets hI (host.status n i) s hs

/-- A read that returns has waited for the process as well. -/
theorem communicate_meets (hI : Persistent I) :
    Script.Meets (fun s => I s ∧ i < s.children.length) (communicate host i)
      (fun _ s => I s ∧ At i (fun c => c.returncode ≠ none) s) fun _ s => I s ∧ Raised s := by
  apply (statement_known hI rfl (by nofun) (later_readPartway i)).bind
  intro n
  have hlater : ∀ c, Child.Later c (((c.exit (host.status n i)).reap).close) := fun c =>
    (later_ended _ c).trans (Child.later_close _)
  exact (onChild_meets hI hlater fun _ => nofun).bind fun _ => .pure fun _ hs => hs

theorem closeStdout_meets (hI : Persistent I) :
    Script.Meets (fun s => I s ∧ i < s.children.length) (closeStdout host i)
      (fun _ s => I s ∧ At i (fun c => c.stdout ≠ some true) s) fun _ s => I s ∧ Raised s :=
  (statement_known hI rfl (by nofun) fun _ _ c => .refl c).bind fun _ =>
    onChild_meets hI Child.later_close Child.stdout_close

theorem piped_meets {E : ε → Procs ε τ → Prop} :
    Script.Meets (fun s : Procs ε τ => I s ∧ i < s.children.length) (piped i)
      (fun pipe s => (I s ∧ i < s.children.length) ∧
        (pipe = false → At i (fun c => c.stdout ≠ some true) s)) E := by
  intro s hs
  refine ⟨hs, fun hpipe => ⟨s.children[i], List.getElem?_eq_getElem hs.2, fun hopen => ?_⟩⟩
  rw [List.getElem?_eq_getElem hs.2, Option.any_some, hopen] at hpipe
  cases hpipe

end Known

theorem popen_meets {command : List (List Char)} {pipe : Bool}
    {P : Procs ε τ → Prop} {Q : Nat → Procs ε τ → Prop} (hI : Persistent P)
    (hQ : ∀ s child, P s → child.command = command →
      Q s.children.length ⟨s.children ++ [child], s.trace ++ [.started command], s.locals⟩) :
    Script.Meets P (popen host command pipe) Q fun _ s => P s ∧ Raised s := by
  intro s hs
  rw [popen]
  cases host.raises s.trace.length with
  | none => exact hQ s _ hs rfl
  | some e =>
    refine ⟨hI s _ ⟨rfl, rfl, fun i c hc => ⟨c, hc, .refl c⟩, [.raised e], rfl, rfl,
      fun i hi => nomatch List.mem_singleton.1 hi⟩ hs, e, ?_⟩
    exact List.mem_append_right _ List.mem_cons_self

end Prog

import MmMem.CommandLineValues
import MmMem.KernelSettings
import MmMem.Library.LinkWalk
import MmMem.Library.PythonText

namespace MmMem
open Prog
set_option autoImplicit true

/-- A process, with what its `/proc/<pid>/stat` tells of it. -/
structure Process where
  pid : Nat
  /-- the command name, as bytes -/
  comm : ByteArray
  state : Char
  letter : state.isAlpha = true
  ppid : Nat
  fields : List Int

/-- `str(n)` -/
def str (n : Int) : Text := (toString n).toList

def statPath (pid : Int) : Text := "/proc/".toList ++ str pid ++ "/stat".toList

/-- The line after the command name and its closing parenthesis. -/
def Process.afterComm (p : Process) : Text :=
  ' ' :: ([p.state] ++ ' ' :: (str p.ppid ++ p.fields.flatMap (fun n => ' ' :: str n) ++ ['\n']))

/-- `pid (comm) state ppid ...` -/
def Process.statLine (p : Process) : ByteArray :=
  encodeUtf8 (str p.pid ++ [' ', '(']) ++ p.comm ++ encodeUtf8 (')' :: p.afterComm)

/-- The exceptions `ancestor_pids` catches. -/
inductive StatError where
  | osError
  | valueError
  | indexError
  deriving Repr, DecidableEq

/-- `open(path)` for reading; a process that is not in the table cannot be opened. -/
def openStat (table : List Process) (path : Text) : Except StatError ByteArray :=
  match table.find? fun p => statPath p.pid == path with
  | some p => .ok p.statLine
  | none => .error .osError

def readStat (bytes : ByteArray) : Except StatError Text :=
  match decodeUtf8 bytes with
  | some text => .ok (universalNewlines text)
  | none => .error .valueError

def item (l : List Text) (i : Nat) : Except StatError Text :=
  match l[i]? with
  | some text => .ok text
  | none => .error .indexError

def int (text : Text) : Except StatError Int :=
  match parseInt text with
  | some n => .ok n
  | none => .error .valueError

/-- The `try` block of `ancestor_pids`. -/
def parentPid (table : List Process) (pid : Int) : Except StatError Int := do
  let bytes ← openStat table (statPath pid)
  let text ← readStat bytes
  let tail ← item (rsplitOnce ')' text) 1
  let field ← item (words tail) 1
  int field

/-- The loop of `ancestor_pids`. -/
def ancestorLoop (table : List Process) : Nat → Int → List Text → Run Exn (List Text)
  | 0, _, _ => .running
  | fuel + 1, pid, excluded =>
    if pid ≠ 0 ∧ str pid ∉ excluded then
      match parentPid table pid with
      | .ok parent => ancestorLoop table fuel parent (str pid :: excluded)
      | .error _ => .done (str pid :: excluded)
    else .done excluded

def ancestorPids (table : List Process) (getpid fuel : Nat) : Run Exn (List Text) :=
  ancestorLoop table fuel getpid []

/-- The entry of a process in the table. -/
def lookup (table : List Process) (pid : Nat) : Option Process :=
  table.find? fun p => p.pid == pid

theorem str_natCast (n : Nat) : str n = Nat.toDigits 10 n := toList_toString n

theorem str_inj {m n : Nat} (h : str m = str n) : m = n := by
  rw [str_natCast, str_natCast] at h
  rw [← decimal_toDigits m, h, decimal_toDigits]

theorem statPath_inj {m n : Nat} (h : statPath m = statPath n) : m = n := by
  unfold statPath at h
  exact str_inj (List.append_cancel_left (List.append_cancel_right h))

theorem openStat_eq (table : List Process) (pid : Nat) :
    openStat table (statPath pid) =
      match lookup table pid with
      | some p => .ok p.statLine
      | none => .error .osError := by
  have hpath : (fun p : Process => statPath p.pid == statPath pid) = fun p => p.pid == pid := by
    funext p
    rw [Bool.eq_iff_iff, beq_iff_eq, beq_iff_eq]
    exact ⟨statPath_inj, fun he => by rw [he]⟩
  rw [openStat, hpath, lookup]

theorem isSpace_of_isAlphanum (h : c.isAlphanum = true) : isSpace c = false := by
  have hrange : (65 ≤ c.toNat ∧ c.toNat ≤ 90) ∨ (97 ≤ c.toNat ∧ c.toNat ≤ 122) ∨
      (48 ≤ c.toNat ∧ c.toNat ≤ 57) := by
    change ((decide (65 ≤ c.val ∧ c.val ≤ 90) ||
      (decide (97 ≤ c.val) && decide (c.val ≤ 122))) ||
        (decide (48 ≤ c.val) && decide (c.val ≤ 57))) = true at h
    simp only [Bool.or_eq_true, Bool.and_eq_true, decide_eq_true_eq, UInt32.le_iff_toNat_le,
      or_assoc] at h
    exact h
  simp only [isSpace, Bool.or_eq_false_iff, Bool.and_eq_false_iff, decide_eq_false_iff_not]
  omega

theorem str_plain (n : Nat) : ∀ c ∈ str n, isSpace c = false := by
  intro c hc
  rw [str_natCast] at hc
  apply isSpace_of_isAlphanum
  rw [Char.isAlphanum, toDigits_isDigit hc, Bool.or_true]

theorem str_ne_nil (n : Nat) : str n ≠ [] := by
  rw [str_natCast]
  exact Nat.toDigits_ne_nil

theorem mem_str (h : c ∈ str n) : c = '-' ∨ c.isDigit = true := by
  cases n with
  | ofNat n =>
    change c ∈ str (n : Int) at h
    rw [str_natCast] at h
    exact .inr (toDigits_isDigit h)
  | negSucc n =>
    change c ∈ ("-" ++ toString (n + 1)).toList at h
    rw [String.toList_append, toList_toString] at h
    rcases List.mem_append.1 h with h | h
    · exact .inl (List.mem_singleton.1 h)
    · exact .inr (toDigits_isDigit h)

/-- Nothing after the command name can be mistaken for what is in it. -/
theorem Process.not_mem_afterComm (p : Process) (hc : c = ')' ∨ c = '\r') : c ∉ p.afterComm := by
  have hstr : ∀ n, c ∉ str n := by
    intro n hmem
    rcases hc with rfl | rfl
    · rcases mem_str hmem with h | h <;> cases h
    · rcases mem_str hmem with h | h <;> cases h
  have hstate : c ≠ p.state := by
    rintro rfl
    have hletter := p.letter
    rcases hc with h | h
    · rw [h] at hletter
      cases hletter
    · rw [h] at hletter
      cases hletter
  have hspace : c ≠ ' ' ∧ c ≠ '\n' := by
    rcases hc with rfl | rfl
    · decide
    · decide
  simp only [Process.afterComm, List.mem_cons, List.mem_append, List.mem_flatMap, hstr, hstate,
    hspace.1, hspace.2, List.not_mem_nil, or_self, and_false, exists_false, not_false_eq_true]

theorem Process.words_afterComm (p : Process) :
    (words p.afterComm)[1]? = some (str p.ppid) := by
  obtain ⟨sep, rest, hrest, hsep⟩ : ∃ sep rest,
      p.fields.flatMap (fun n => ' ' :: str n) ++ ['\n'] = sep :: rest ∧ isSpace sep = true := by
    cases p.fields with
    | nil => exact ⟨'\n', [], rfl, rfl⟩
    | cons n fields => exact ⟨' ', _, rfl, rfl⟩
  have hletter : ∀ c ∈ [p.state], isSpace c = false := by
    intro c hc
    rw [List.mem_singleton.1 hc]
    apply isSpace_of_isAlphanum
    rw [Char.isAlphanum, p.letter, Bool.true_or]
  rw [Process.afterComm, words_space rfl, words_append (List.cons_ne_nil _ _) hletter rfl,
    List.append_assoc, hrest, words_append (str_ne_nil _) (str_plain _) hsep]
  rfl

theorem readStat_ok {p : Process} (h : p.comm.IsValidUTF8) :
    ∃ front, readStat p.statLine = .ok (front ++ ')' :: p.afterComm) := by
  obtain ⟨comm, hcomm⟩ := Option.isSome_iff_exists.1 (ByteArray.isSome_utf8Decode?_iff.2 h)
  refine ⟨universalNewlines (str p.pid ++ [' ', '('] ++ comm.toList), ?_⟩
  have hplain : '\r' ∉ ')' :: p.afterComm :=
    List.not_mem_cons_of_ne_of_not_mem (by decide) (p.not_mem_afterComm (.inr rfl))
  rw [readStat, Process.statLine, decodeUtf8_between, decodeUtf8, hcomm, Option.map_some,
    Option.map_some]
  simp only
  rw [universalNewlines_append (by decide), universalNewlines_eq hplain]

theorem readStat_error {p : Process} (h : ¬ p.comm.IsValidUTF8) :
    readStat p.statLine = .error .valueError := by
  have hnone : decodeUtf8 p.comm = none := by
    rw [← ByteArray.isSome_utf8Decode?_iff, Option.not_isSome_iff_eq_none] at h
    rw [decodeUtf8, h, Option.map_none]
  rw [readStat, Process.statLine, decodeUtf8_between, hnone, Option.map_none]

theorem int_str (n : Nat) : int (str n) = .ok (n : Int) := by
  rw [int, str_natCast, parseInt_toDigits]

/-- The parent is read, whatever the command name, if that can be decoded. -/
theorem parentPid_eq (table : List Process) (pid : Nat) :
    parentPid table pid =
      match lookup table pid with
      | some p => if p.comm.IsValidUTF8 then .ok (p.ppid : Int) else .error .valueError
      | none => .error .osError := by
  rw [parentPid, openStat_eq]
  cases lookup table pid with
  | none => rfl
  | some p =>
    by_cases hvalid : p.comm.IsValidUTF8
    · obtain ⟨front, hread⟩ := readStat_ok hvalid
      have hitem : item (rsplitOnce ')' (front ++ ')' :: p.afterComm)) 1 = .ok p.afterComm := by
        rw [rsplitOnce_append (p.not_mem_afterComm (.inl rfl))]
        rfl
      have hfield : item (words p.afterComm) 1 = .ok (str p.ppid) := by
        rw [item, p.words_afterComm]
      simp only [if_pos hvalid, bind, Except.bind, hread, hitem, hfield, int_str]
    · simp only [if_neg hvalid, bind, Except.bind, readStat_error hvalid]

/-- The parent of a process, if it can be opened and has one. -/
def nextAncestor (table : List Process) (pid : Nat) : Option Nat :=
  match lookup table pid with
  | some p => if p.ppid ≠ 0 then some p.ppid else none
  | none => none

/-- The parent the loop goes on with. -/
def nextRead (table : List Process) (pid : Nat) : Option Nat :=
  match lookup table pid with
  | some p => if p.comm.IsValidUTF8 ∧ p.ppid ≠ 0 then some p.ppid else none
  | none => none

/-- The process is on the parent chain of `self`. -/
def Ancestor (table : List Process) (self pid : Nat) : Prop :=
  ∃ k, chain (nextAncestor table) self k = some pid

/-- Every command name on the parent chain can be decoded, unless the chain ends there, at its last
process or where it leads back to an earlier one. -/
def AncestorsDecodable (table : List Process) (self : Nat) : Prop :=
  ∀ k pid p parent, chain (nextAncestor table) self k = some pid → lookup table pid = some p →
    ¬ p.comm.IsValidUTF8 → nextAncestor table pid = some parent →
      ∃ j ≤ k, chain (nextAncestor table) self j = some parent

variable {table : List Process} {self pid : Nat}

theorem nextRead_sub (h : nextRead table pid = some parent) :
    nextAncestor table pid = some parent := by
  rw [nextRead] at h
  rw [nextAncestor]
  split at h
  · split at h
    · next hp =>
      rw [if_pos hp.2]
      exact h
    · cases h
  · cases h

theorem nextRead_none (h : nextRead table pid = none)
    (hnext : nextAncestor table pid = some parent) :
    ∃ p, lookup table pid = some p ∧ ¬ p.comm.IsValidUTF8 := by
  rw [nextRead] at h
  rw [nextAncestor] at hnext
  cases hp : lookup table pid with
  | none =>
    rw [hp] at hnext
    cases hnext
  | some p =>
    simp only [hp] at h hnext
    refine ⟨p, rfl, fun hvalid => ?_⟩
    by_cases hppid : p.ppid ≠ 0
    · rw [if_pos ⟨hvalid, hppid⟩] at h
      cases h
    · rw [if_neg hppid] at hnext
      cases hnext

theorem nextRead_of_invalid (hp : lookup table pid = some p) (h : ¬ p.comm.IsValidUTF8) :
    nextRead table pid = none := by
  simp only [nextRead, hp]
  exact if_neg fun hand => h hand.1

/-- The loop is the walk along the parents it can read. -/
theorem ancestorLoop_walk {seen out : List Nat} (hpid : pid ≠ 0)
    (h : (walk (nextRead table) fuel pid seen : Run Exn (List Nat)) = .done out) :
    ancestorLoop table (fuel + 1) pid (seen.map fun n : Nat => str n) =
      .done (out.map fun n : Nat => str n) := by
  induction fuel generalizing pid seen with
  | zero => cases h
  | succ fuel ih =>
    have hmem : str pid ∈ seen.map (fun n : Nat => str n) ↔ pid ∈ seen :=
      ⟨fun hm => by
        obtain ⟨n, hn, he⟩ := List.mem_map.1 hm
        exact str_inj he ▸ hn, fun hm => List.mem_map.2 ⟨pid, hm, rfl⟩⟩
    rw [walk] at h
    rw [ancestorLoop]
    by_cases hseen : pid ∈ seen
    · rw [if_pos hseen] at h
      cases h
      exact if_neg fun hand => hand.2 (hmem.2 hseen)
    rw [if_neg hseen] at h
    rw [if_pos ⟨Int.natCast_ne_zero.2 hpid, mt hmem.1 hseen⟩, parentPid_eq]
    rw [nextRead] at h
    cases hp : lookup table pid with
    | none =>
      rw [hp] at h
      cases h
      rfl
    | some p =>
      simp only [hp] at h ⊢
      by_cases hvalid : p.comm.IsValidUTF8
      · rw [if_pos hvalid]
        by_cases hppid : p.ppid ≠ 0
        · rw [if_pos ⟨hvalid, hppid⟩] at h
          exact ih hppid h
        · rw [if_neg fun hand => hppid hand.2] at h
          cases h
          simp only
          rw [not_not.1 hppid, ancestorLoop]
          exact if_neg fun hand => hand.1 rfl
      · rw [if_neg fun hand => hvalid hand.1] at h
        rw [if_neg hvalid]
        cases h
        rfl

/-- The loop ends whatever the parent links are, and collects the whole chain just if the command
names on it can be decoded. -/
theorem ancestorPids_spec (table : List Process) (hself : self ≠ 0) :
    ∃ excluded, (∀ fuel, table.length + 3 ≤ fuel → ancestorPids table self fuel = .done excluded) ∧
      ((∀ text, text ∈ excluded ↔ ∃ pid, Ancestor table self pid ∧ text = str pid) ↔
        AncestorsDecodable table self) := by
  have hdom : ∀ pid parent, nextRead table pid = some parent → pid ∈ table.map (·.pid) := by
    intro pid parent h
    rw [nextRead] at h
    split at h
    · next p hp =>
      have hpid := List.find?_some hp
      exact List.mem_map.2 ⟨p, List.mem_of_find?_eq_some hp, beq_iff_eq.1 hpid⟩
    · cases h
  have hfuel :
      ((table.map (·.pid)).filter (· ∉ ([] : List Nat))).length + 2 ≤ table.length + 2 := by
    have hle := List.length_filter_le (· ∉ ([] : List Nat)) (table.map (·.pid))
    rw [List.length_map] at hle
    omega
  obtain ⟨out, hout⟩ := exists_walk (ε := Exn) (a := self) _ hdom hfuel
  refine ⟨out.map fun n : Nat => str n, fun fuel hlarge => ?_, ?_⟩
  · obtain ⟨fuel, rfl⟩ : ∃ n, fuel = n + 1 := ⟨fuel - 1, by omega⟩
    exact ancestorLoop_walk hself (walk_mono hout (by omega))
  · have hsub : ∀ x y, nextRead table x = some y → nextAncestor table x = some y :=
      fun _ _ => nextRead_sub
    have hiff := chain_sub_iff (a := self) hsub
    have hmem : (∀ text, text ∈ out.map (fun n : Nat => str n) ↔
        ∃ pid, Ancestor table self pid ∧ text = str pid) ↔
        ∀ b, (∃ k, chain (nextRead table) self k = some b) ↔
          ∃ k, chain (nextAncestor table) self k = some b := by
      constructor
      · intro h b
        rw [← mem_walk hout]
        constructor
        · intro hb
          obtain ⟨pid, hpid, he⟩ := (h (str b)).1 (List.mem_map.2 ⟨b, hb, rfl⟩)
          rwa [str_inj he]
        · intro hb
          obtain ⟨n, hn, he⟩ := List.mem_map.1 ((h (str b)).2 ⟨b, hb, rfl⟩)
          rwa [← str_inj he]
      · intro h text
        rw [List.mem_map]
        constructor
        · rintro ⟨n, hn, rfl⟩
          exact ⟨n, (h n).1 ((mem_walk hout).1 hn), rfl⟩
        · rintro ⟨pid, hpid, rfl⟩
          exact ⟨pid, (mem_walk hout).2 ((h pid).2 hpid), rfl⟩
    rw [hmem, hiff]
    constructor
    · intro h k pid p parent hk hp hvalid hnext
      exact h k pid parent hk (nextRead_of_invalid hp hvalid) hnext
    · intro h k pid parent hk hnone hnext
      obtain ⟨p, hp, hvalid⟩ := nextRead_none hnone hnext
      exact h k pid p parent hk hp hvalid hnext

end MmMem

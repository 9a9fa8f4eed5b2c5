import MmMem.Library.BoundedRun
import Mathlib.Algebra.Group.Int.Defs
import Mathlib.Algebra.Group.Nat.Defs
import Mathlib.Data.List.Basic
import Mathlib.Logic.Function.Basic

namespace MmMem
open Prog
set_option autoImplicit true

/-- A string of bytes. -/
abbrev Text : Type := List Char

/-- A C++ integral type other than `bool`. -/
structure IntType where
  signed : Bool
  bits : Nat
  deriving Repr, DecidableEq

/-- `std::numeric_limits<T>::min()` -/
def IntType.min (t : IntType) : Int := if t.signed then -2 ^ (t.bits - 1) else 0

/-- `std::numeric_limits<T>::max()` -/
def IntType.max (t : IntType) : Int :=
  if t.signed then 2 ^ (t.bits - 1) - 1 else 2 ^ t.bits - 1

/-- `static_cast<T>` -/
def IntType.cast (t : IntType) (n : Int) : Int := (n - t.min) % 2 ^ t.bits + t.min

def decimal (digits : Text) : Nat :=
  digits.foldl (fun n c => 10 * n + (c.toNat - '0'.toNat)) 0

/-- `std::stoll` on an optional sign and digits. -/
def stoll (text : Text) : Except Text Int :=
  let n : Int := match text with
    | '-' :: digits => -decimal digits
    | '+' :: digits => decimal digits
    | digits => decimal digits
  if -2 ^ 63 ≤ n ∧ n < 2 ^ 63 then .ok n else .error "stoll".toList

/-- `std::stoull` on an optional plus sign and digits. -/
def stoull (text : Text) : Except Text Int :=
  let n : Int := match text with
    | '+' :: digits => decimal digits
    | digits => decimal digits
  if n < 2 ^ 64 then .ok n else .error "stoull".toList

/-- The assignment `value` installs: the integer stored, or what the exception says. -/
def IntType.assign (t : IntType) (text : Text) : Except Text Int :=
  match text.findIdx? fun c => c != '+' && c != '-' with
  | none => .error "expected a decimal integer".toList
  | some first =>
    if first > 1 || (text.drop first).any fun c => !c.isDigit then
      .error "expected a decimal integer".toList
    else if t.signed then do
      let parsed ← stoll text
      if parsed < t.min ∨ parsed > t.max then .error "integer out of range".toList
      else return t.cast parsed
    else if text.head? = some '-' then .error "expected a nonnegative integer".toList
    else do
      let parsed ← stoull text
      if parsed > t.max then .error "integer out of range".toList
      else return t.cast parsed

structure CommandOption (τ : Type) where
  name : Text
  aliasName : Text
  isFlag : Bool
  target : τ
  assign : Text → Except Text Int

/-- A call of `value` or `flag`. -/
inductive Declaration (τ : Type) where
  | value (names : Text) (target : τ) (type : IntType) (defaultValue : Int)
  | flag (names : Text) (target : τ)

/-- `add`: the names end at the first comma, and the alias follows it. -/
def CommandOption.add (names : Text) (isFlag : Bool) (target : τ)
    (assign : Text → Except Text Int) : CommandOption τ :=
  match names.idxOf? ',' with
  | none => ⟨names, [], isFlag, target, assign⟩
  | some comma => ⟨names.take comma, names.drop (comma + 1), isFlag, target, assign⟩

def Declaration.option : Declaration τ → CommandOption τ
  | .value names target type _ => .add names false target type.assign
  | .flag names target => .add names true target fun _ => .ok 1

def Declaration.target : Declaration τ → τ
  | .value _ target _ _ => target
  | .flag _ target => target

/-- What the target holds once the option is declared; a flag holds 0 or 1. -/
def Declaration.initial : Declaration τ → Int
  | .value _ _ type defaultValue => type.cast defaultValue
  | .flag _ _ => 0

/-- What `parse` throws, and the access to `argv` it must not make. -/
inductive ParseFault where
  | invalidArgument (message : Text)
  | readPastEnd (index : Nat)
  deriving Repr, DecidableEq

def readArg (argv : List Text) (i : Nat) : Run ParseFault Text :=
  match argv[i]? with
  | some arg => .done arg
  | none => .fault (.readPastEnd i)

def dashes : Text := ['-', '-']

variable {τ : Type}

/-- The loop index of `parse`, the options seen and the targets. -/
structure ParseState (τ : Type) where
  index : Nat
  seen : List Bool
  store : τ → Int

/-- An argument read as an option: its spelling, and the value attached to it, if any. -/
structure OptionArg where
  longOption : Bool
  name : Text
  attached : Option Text
  deriving Repr, DecidableEq

def readOption (arg : Text) : OptionArg :=
  if arg.take 2 = dashes then
    match arg.idxOf? '=' with
    | none => ⟨true, arg.drop 2, none⟩
    | some equal => ⟨true, (arg.drop 2).take (equal - 2), some (arg.drop (equal + 1))⟩
  else ⟨false, (arg.drop 1).take 1, if arg.length > 2 then some (arg.drop 2) else none⟩

/-- The first option of that name or alias, with its index. -/
def findOption (options : List (CommandOption τ)) (arg : OptionArg) :
    Option (CommandOption τ × Nat) :=
  options.zipIdx.find? fun o =>
    if arg.longOption then o.1.name == arg.name else o.1.aliasName == arg.name

/-- The value of an option and the index it was read at: attached to it, or the next argument. -/
def optionText (argv : List Text) (i : Nat) (option : CommandOption τ) (attached : Option Text) :
    Run ParseFault (Text × Nat) :=
  if option.isFlag then
    match attached with
    | some _ => .fault (.invalidArgument ("option takes no value: --".toList ++ option.name))
    | none => .done ([], i)
  else
    match attached with
    | some text => .done (text, i)
    | none =>
      if i + 1 = argv.length then
        .fault (.invalidArgument ("missing value: --".toList ++ option.name))
      else do
        let next ← readArg argv (i + 1)
        if next.take 2 = dashes then
          .fault (.invalidArgument ("missing value: --".toList ++ option.name))
        else do
          let text ← readArg argv (i + 1)
          return (text, i + 1)

variable [DecidableEq τ]

/-- The targets after the declarations. -/
def declare (declarations : List (Declaration τ)) (store : τ → Int) : τ → Int :=
  declarations.foldl (fun store d => Function.update store d.target d.initial) store

/-- The rest of a trip of the loop of `parse`, once the option is found. -/
def assignOption (argv : List Text) (s : ParseState τ) (option : CommandOption τ) (index : Nat)
    (attached : Option Text) : Run ParseFault (Option (ParseState τ)) :=
  if s.seen.getD index false then
    .fault (.invalidArgument ("duplicate option: --".toList ++ option.name))
  else do
    let (text, i) ← optionText argv s.index option attached
    match option.assign text with
    | .error what => .fault (.invalidArgument ("invalid value for --".toList ++ option.name ++
        ": ".toList ++ text ++ " (".toList ++ what ++ ")".toList))
    | .ok value => return some ⟨i + 1, s.seen.set index true,
        Function.update s.store option.target value⟩

/-- One trip of the loop of `parse`; `none` where it breaks. -/
def parseArg (options : List (CommandOption τ)) (argv : List Text) (s : ParseState τ) :
    Run ParseFault (Option (ParseState τ)) := do
  let arg ← readArg argv s.index
  if arg = dashes ∧ s.index + 1 = argv.length then return none
  else if arg.length < 2 ∨ arg.head? ≠ some '-' ∨ arg = dashes then
    .fault (.invalidArgument ("unexpected argument: ".toList ++ arg))
  else
    match findOption options (readOption arg) with
    | none => .fault (.invalidArgument ("unknown option: ".toList ++ arg))
    | some (option, index) => assignOption argv s option index (readOption arg).attached

def parseLoop (options : List (CommandOption τ)) (argv : List Text) :
    Nat → ParseState τ → Run ParseFault (τ → Int)
  | 0, _ => .running
  | fuel + 1, s =>
    if s.index < argv.length then do
      match ← parseArg options argv s with
      | none => return s.store
      | some s' => parseLoop options argv fuel s'
    else return s.store

/-- `parse`: no more trips are needed than there are arguments. -/
def parse (options : List (CommandOption τ)) (argv : List Text) (store : τ → Int) :
    Run ParseFault (τ → Int) :=
  parseLoop options argv (argv.length + 1) ⟨1, List.replicate options.length false, store⟩

end MmMem

import MmMem.OptionIntegers
import MmMem.CommandLineLanguage
import Mathlib.Data.List.Perm.Basic

namespace MmMem
open Prog
set_option autoImplicit true

variable {τ : Type}

/-- The values a declared target can hold. -/
def Declaration.Holds (n : Int) : Declaration τ → Prop
  | .value _ _ type _ => type.Holds n
  | .flag _ _ => n = 0 ∨ n = 1

/-- The types of the values have a width that C++ integers have. -/
def Declaration.Sized : Declaration τ → Prop
  | .value _ _ type _ => 1 ≤ type.bits ∧ type.bits ≤ 64
  | .flag _ _ => True

theorem IntType.cast_holds {t : IntType} (h : 1 ≤ t.bits) (n : Int) : t.Holds (t.cast n) := by
  have hpos : (0 : Int) < 2 ^ t.bits := Int.pow_pos (by decide)
  have hlow := Int.emod_nonneg (n - t.min) (Int.ne_of_gt hpos)
  have hhigh := Int.emod_lt_of_pos (n - t.min) hpos
  have hmax : t.max = 2 ^ t.bits - 1 + t.min := by
    obtain ⟨k, hk⟩ : ∃ k, t.bits = k + 1 := ⟨t.bits - 1, by omega⟩
    rw [IntType.max, IntType.min, hk]
    split
    · rw [Nat.add_sub_cancel, Int.pow_succ]
      omega
    · omega
  rw [IntType.Holds, IntType.cast, hmax]
  omega

theorem Declaration.initial_holds {d : Declaration τ} (h : d.Sized) : d.Holds d.initial := by
  cases d with
  | value names target type defaultValue => exact IntType.cast_holds h.1 defaultValue
  | flag names target => exact .inl rfl

theorem Declaration.assign_holds {d : Declaration τ} (h : d.Sized)
    (hv : d.option.assign text = .ok v) : d.Holds v := by
  cases d with
  | value names target type defaultValue =>
    rw [(Declaration.option_value names target type defaultValue).2] at hv
    exact ((IntType.assign_ok_iff h.1 h.2).1 hv).2
  | flag names target =>
    rw [(Declaration.option_flag names target).2] at hv
    exact .inr (Except.ok.inj hv).symm

/-- The option as a command line asks for a value of its target: a flag that is not set is left
out. -/
def Declaration.usages (n : Int) (d : Declaration τ) : List (Usage τ) :=
  match d with
  | .value .. =>
    [⟨d.option, [dashes ++ d.option.name ++ '=' :: (toString n).toList], (toString n).toList⟩]
  | .flag .. => if n = 0 then [] else [⟨d.option, [dashes ++ d.option.name], []⟩]

theorem Declaration.mem_usages {d : Declaration τ} (hsized : d.Sized) (hn : d.Holds n)
    (hu : u ∈ d.usages n) :
    u.option = d.option ∧ Spells u.option u.tokens u.text ∧ u.option.assign u.text = .ok n := by
  cases d with
  | value names target type defaultValue =>
    obtain rfl := List.mem_singleton.1 hu
    obtain ⟨hflag, hassign⟩ := Declaration.option_value names target type defaultValue
    refine ⟨rfl, .longAttached hflag _, ?_⟩
    change (Declaration.value names target type defaultValue).option.assign _ = _
    rw [hassign, IntType.assign_ok_iff hsized.1 hsized.2]
    refine ⟨numeral_toString n fun hneg => ?_, hn⟩
    cases hs : type.signed with
    | true => rfl
    | false =>
      have hmin := hn.1
      rw [IntType.min, hs, if_neg Bool.false_ne_true] at hmin
      exact absurd hneg (Int.not_lt.2 hmin)
  | flag names target =>
    rw [Declaration.usages] at hu
    split at hu
    · exact absurd hu List.not_mem_nil
    · next hne =>
      obtain rfl := List.mem_singleton.1 hu
      obtain ⟨hflag, hassign⟩ := Declaration.option_flag names target
      exact ⟨rfl, .longFlag hflag, (hassign _).trans (congrArg _ (hn.resolve_left hne).symm)⟩

theorem Declaration.initial_of_usages {d : Declaration τ} (h : d.usages n = []) :
    d.initial = n := by
  cases d with
  | value names target type defaultValue => exact absurd h (List.cons_ne_nil _ _)
  | flag names target =>
    rw [Declaration.usages] at h
    split at h
    · next hn => exact hn.symm
    · exact absurd h (List.cons_ne_nil _ _)

/-- The targets written out, option by option. -/
def writtenOut (declarations : List (Declaration τ)) (store : τ → Int) : List (Usage τ) :=
  declarations.flatMap fun d => d.usages (store d.target)

/-- The arguments of a command line for these targets. -/
def arguments (declarations : List (Declaration τ)) (store : τ → Int) : List Text :=
  (writtenOut declarations store).flatMap (·.tokens)

/-- Targets as a command line can leave them: the declared ones in the ranges of their types, any
other as it was. -/
structure Expressible (declarations : List (Declaration τ)) (store₀ store : τ → Int) : Prop where
  holds : ∀ d ∈ declarations, d.Holds (store d.target)
  others : ∀ x, (∀ d ∈ declarations, d.target ≠ x) → store x = store₀ x

variable {declarations : List (Declaration τ)} {store₀ store : τ → Int}

theorem writtenOut_options (declarations : List (Declaration τ)) (store : τ → Int) :
    ((writtenOut declarations store).map (·.option)).Sublist (declarations.map (·.option)) := by
  induction declarations with
  | nil => exact List.Sublist.refl _
  | cons d declarations ih =>
    rw [writtenOut, List.flatMap_cons, List.map_append, List.map_cons]
    have hone : ((d.usages (store d.target)).map (·.option)).Sublist [d.option] := by
      cases d with
      | value names target type defaultValue => exact List.Sublist.refl _
      | flag names target =>
        rw [Declaration.usages]
        split
        · exact List.nil_sublist _
        · exact List.Sublist.refl _
    exact hone.append ih

theorem OptionTable.nodup {options : List (CommandOption τ)} (h : OptionTable options) :
    options.Nodup := .of_map _ h.names

theorem writtenOut_sentence (h : OptionTable (declarations.map (·.option)))
    (hsized : ∀ d ∈ declarations, d.Sized) (hstore : ∀ d ∈ declarations, d.Holds (store d.target)) :
    Sentence (declarations.map (·.option)) (arguments declarations store)
      (writtenOut declarations store) := by
  have hmem : ∀ u ∈ writtenOut declarations store, ∃ d ∈ declarations,
      u.option = d.option ∧ Spells u.option u.tokens u.text ∧
        u.option.assign u.text = .ok (store d.target) := by
    intro u hu
    obtain ⟨d, hd, hu⟩ := List.mem_flatMap.1 hu
    exact ⟨d, hd, d.mem_usages (hsized d hd) (hstore d hd) hu⟩
  refine ⟨fun u hu => ?_, fun u hu => ?_, ?_, fun u hu => ?_, .inl rfl⟩
  · obtain ⟨d, hd, hoption, -⟩ := hmem u hu
    exact hoption ▸ List.mem_map_of_mem hd
  · obtain ⟨d, hd, -, hspells, -⟩ := hmem u hu
    exact hspells
  · exact (writtenOut_options declarations store).nodup h.nodup
  · obtain ⟨d, hd, -, -, hvalue⟩ := hmem u hu
    exact ⟨_, hvalue⟩

theorem Sentence.targets {options : List (CommandOption τ)} {args : List Text}
    {usages : List (Usage τ)} (h : OptionTable options) (hs : Sentence options args usages) :
    (usages.map (·.option.target)).Nodup := by
  have hmap : usages.map (·.option.target) = (usages.map (·.option)).map (·.target) :=
    (List.map_map ..).symm
  rw [hmap]
  refine hs.once.map_on fun o ho o' ho' ht => ?_
  obtain ⟨u, hu, rfl⟩ := List.mem_map.1 ho
  obtain ⟨u', hu', rfl⟩ := List.mem_map.1 ho'
  exact h.target_inj (hs.known u hu) (hs.known u' hu') ht

variable [DecidableEq τ]

theorem Sentence.parse {options : List (CommandOption τ)} {usages : List (Usage τ)}
    (h : OptionTable options) (hdash : ∀ o ∈ options, o.aliasName ≠ ['-'])
    (hs : Sentence options (argv.drop 1) usages)
    (store : τ → Int) :
    MmMem.parse options argv store = .done (assignAll usages store) :=
  parseLoop_complete h hdash (.start options) (by omega) ⟨hs, fun _ _ => List.not_mem_nil⟩

theorem sentence_of_parse {options : List (CommandOption τ)} (h : OptionTable options)
    (hdash : ∀ o ∈ options, o.aliasName ≠ ['-']) (hp : parse options argv store = .done store') :
    ∃ usages, Sentence options (argv.drop 1) usages ∧ store' = assignAll usages store := by
  have hfuel : argv.length - 1 < argv.length + 1 := by omega
  rcases parseLoop_sound (s := ⟨1, List.replicate options.length false, store⟩) h (.start options)
    hfuel with ⟨-, usages, hs⟩ | ⟨message, hm⟩
  · refine ⟨usages, hs.toSentence, ?_⟩
    rw [hs.toSentence.parse h hdash] at hp
    exact (Run.done.inj hp).symm
  · rw [parse, hm] at hp
    cases hp

theorem assignAll_perm {usages usages' : List (Usage τ)} (hperm : usages'.Perm usages)
    (hnodup : (usages.map (·.option.target)).Nodup) (store : τ → Int) :
    assignAll usages' store = assignAll usages store := by
  symm
  apply hperm.symm.foldl_eq'
  intro u hu u' hu' store
  by_cases htarget : u.option.target = u'.option.target
  · rw [List.inj_on_of_nodup_map hnodup hu hu' htarget]
  · exact Function.update_comm htarget _ _ store

theorem assignAll_writtenOut (h : OptionTable (declarations.map (·.option)))
    (hsized : ∀ d ∈ declarations, d.Sized) (hstore : Expressible declarations store₀ store) :
    assignAll (writtenOut declarations store) (declare declarations store₀) = store := by
  have hs := writtenOut_sentence h hsized hstore.holds
  funext x
  by_cases hx : ∃ d ∈ declarations, d.target = x
  · obtain ⟨d, hd, rfl⟩ := hx
    cases hus : d.usages (store d.target) with
    | nil =>
      -- a flag that is not set: no usage has its target
      have hother : assignAll (writtenOut declarations store) (declare declarations store₀)
          d.target = declare declarations store₀ d.target := by
        refine foldl_update_ne (fun u hu htarget => ?_) _
        obtain ⟨d', hd', hu⟩ := List.mem_flatMap.1 hu
        have hoption := (d'.mem_usages (hsized d' hd') (hstore.holds d' hd') hu).1
        have hsame : d'.option = d.option := h.target_inj (List.mem_map_of_mem hd')
          (List.mem_map_of_mem hd) (hoption ▸ htarget.trans d.option_target.symm)
        obtain rfl := List.inj_on_of_nodup_map h.nodup hd' hd hsame
        rw [hus] at hu
        exact absurd hu List.not_mem_nil
      rw [hother, declare_target h store₀ hd]
      exact d.initial_of_usages hus
    | cons u us =>
      have hu : u ∈ d.usages (store d.target) := hus ▸ List.mem_cons_self
      obtain ⟨hoption, -, hvalue⟩ := d.mem_usages (hsized d hd) (hstore.holds d hd) hu
      have hgiven : assignAll (writtenOut declarations store) (declare declarations store₀)
          u.option.target = u.value :=
        foldl_update_mem (hs.targets h) (List.mem_flatMap.2 ⟨d, hd, hu⟩) _
      rw [hoption, d.option_target] at hgiven
      rw [hgiven, Usage.value, hvalue]
  · have hne : ∀ d ∈ declarations, d.target ≠ x := fun d hd htarget => hx ⟨d, hd, htarget⟩
    have hunused : ∀ u ∈ writtenOut declarations store, u.option.target ≠ x := fun u hu => by
      obtain ⟨d, hd, hu⟩ := List.mem_flatMap.1 hu
      rw [(d.mem_usages (hsized d hd) (hstore.holds d hd) hu).1, d.option_target]
      exact hne d hd
    rw [hstore.others x hne]
    exact (foldl_update_ne hunused _).trans (foldl_update_ne hne store₀)

theorem assignAll_expressible (h : OptionTable (declarations.map (·.option)))
    (hsized : ∀ d ∈ declarations, d.Sized)
    (hs : Sentence (declarations.map (·.option)) args usages) :
    Expressible declarations store₀ (assignAll usages (declare declarations store₀)) := by
  refine ⟨fun d hd => ?_, fun x hne => ?_⟩
  · by_cases hused : ∃ u ∈ usages, u.option = d.option
    · obtain ⟨u, hu, hoption⟩ := hused
      obtain ⟨v, hv⟩ := hs.converted u hu
      have hgiven : assignAll usages (declare declarations store₀) u.option.target = u.value :=
        foldl_update_mem (hs.targets h) hu _
      rw [hoption, d.option_target] at hgiven
      rw [hgiven, Usage.value, hv]
      exact d.assign_holds (hsized d hd) (hoption ▸ hv)
    · have hunused : ∀ u ∈ usages, u.option.target ≠ d.target := fun u hu htarget =>
        hused ⟨u, hu, h.target_inj (hs.known u hu) (List.mem_map_of_mem hd)
          (htarget.trans d.option_target.symm)⟩
      have hdefault : assignAll usages (declare declarations store₀) d.target = d.initial :=
        (foldl_update_ne hunused _).trans (declare_target h store₀ hd)
      rw [hdefault]
      exact d.initial_holds (hsized d hd)
  · refine (foldl_update_ne (fun u hu htarget => ?_) _).trans (foldl_update_ne hne store₀)
    obtain ⟨d, hd, hoption⟩ := List.mem_map.1 (hs.known u hu)
    exact hne d hd (d.option_target.symm.trans ((congrArg _ hoption).trans htarget))

theorem parse_writtenOut (h : OptionTable (declarations.map (·.option)))
    (hdash : ∀ o ∈ declarations.map (·.option), o.aliasName ≠ ['-'])
    (hsized : ∀ d ∈ declarations, d.Sized) (hstore : Expressible declarations store₀ store)
    (name : Text) :
    parse (declarations.map (·.option)) (name :: arguments declarations store)
      (declare declarations store₀) = .done store := by
  have hs : Sentence (declarations.map (·.option))
      ((name :: arguments declarations store).drop 1) (writtenOut declarations store) :=
    writtenOut_sentence h hsized hstore.holds
  rw [hs.parse h hdash, assignAll_writtenOut h hsized hstore]

/-- The targets a command line can leave are exactly those in the ranges of their types: each such
state is read back from the command line written for it, nothing else is ever parsed, and the order
in which the options are given makes no difference. -/
theorem parse_round_trip (declarations : List (Declaration τ)) (store₀ : τ → Int)
    (h : OptionTable (declarations.map (·.option)))
    (hdash : ∀ d ∈ declarations, d.option.aliasName ≠ ['-'])
    (hsized : ∀ d ∈ declarations, d.Sized) (name : Text) :
    let options := declarations.map (·.option)
    let initial := declare declarations store₀
    (∀ store, Expressible declarations store₀ store →
      parse options (name :: arguments declarations store) initial = .done store) ∧
    (∀ argv store, parse options argv initial = .done store →
      Expressible declarations store₀ store) ∧
    ∀ argv (usages usages' : List (Usage τ)), Sentence options (argv.drop 1) usages →
      usages'.Perm usages →
      parse options (name :: usages'.flatMap (·.tokens)) initial = parse options argv initial := by
  intro options initial
  have hdash' : ∀ o ∈ options, o.aliasName ≠ ['-'] := fun o ho => by
    obtain ⟨d, hd, rfl⟩ := List.mem_map.1 ho
    exact hdash d hd
  refine ⟨fun store hstore => parse_writtenOut h hdash' hsized hstore name, fun argv store hp => ?_,
    fun argv usages usages' hs hperm => ?_⟩
  · obtain ⟨usages, hs, rfl⟩ := sentence_of_parse h hdash' hp
    exact assignAll_expressible h hsized hs
  · have hs' : Sentence options ((name :: usages'.flatMap (·.tokens)).drop 1) usages' :=
      ⟨fun u hu => hs.known u (hperm.mem_iff.1 hu), fun u hu => hs.spelled u (hperm.mem_iff.1 hu),
        (hperm.map _).nodup_iff.2 hs.once,
        fun u hu => hs.converted u (hperm.mem_iff.1 hu), .inl rfl⟩
    rw [hs'.parse h hdash', assignAll_perm hperm (hs.targets h), hs.parse h hdash']

/-- A negative value and a flag that is set, read back. -/
theorem parse_round_trip_negative :
    let declarations : List (Declaration Bool) :=
      [.value "delay,d".toList false ⟨true, 32⟩ 4, .flag "verbose".toList true]
    parse (declarations.map (·.option)) ["test".toList, "--delay=-5".toList, "--verbose".toList]
      (declare declarations fun _ => 9) = .done fun x => if x then 1 else -5 := by
  intro declarations
  have htable : OptionTable (declarations.map (·.option)) := by
    refine ⟨by decide, by decide, ?_, by decide, by decide⟩
    intro o ho
    rcases List.mem_cons.1 ho with rfl | ho
    · exact .inr ⟨'d', rfl⟩
    · obtain rfl := List.mem_singleton.1 ho
      exact .inl rfl
  have hsized : ∀ d ∈ declarations, d.Sized := by
    intro d hd
    rcases List.mem_cons.1 hd with rfl | hd
    · exact ⟨by decide, by decide⟩
    · obtain rfl := List.mem_singleton.1 hd
      trivial
  refine (parse_round_trip declarations (fun _ => 9) htable (by decide) hsized "test".toList).1
    (fun x => if x then 1 else -5) ⟨fun d hd => ?_, fun x hx => ?_⟩
  · rcases List.mem_cons.1 hd with rfl | hd
    · exact ⟨by decide, by decide⟩
    · obtain rfl := List.mem_singleton.1 hd
      exact .inr rfl
  · cases x with
    | false => exact absurd rfl (hx _ List.mem_cons_self)
    | true => exact absurd rfl (hx _ (List.mem_cons_of_mem _ List.mem_cons_self))

end MmMem

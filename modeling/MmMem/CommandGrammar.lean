import MmMem.CommandLine
import Mathlib.Data.List.Nodup
import Mathlib.Data.List.TakeDrop

namespace MmMem
open Prog
set_option autoImplicit true

/-- The arguments that spell an option, with the text of its value. -/
inductive Spells (o : CommandOption τ) : List Text → Text → Prop where
  | longFlag (hf : o.isFlag = true) : Spells o [dashes ++ o.name] []
  | shortFlag (hf : o.isFlag = true) (ha : o.aliasName = [c]) : Spells o [['-', c]] []
  | longAttached (hf : o.isFlag = false) (text : Text) :
    Spells o [dashes ++ o.name ++ '=' :: text] text
  | longDetached (hf : o.isFlag = false) (ht : text.take 2 ≠ dashes) :
    Spells o [dashes ++ o.name, text] text
  | shortDetached (hf : o.isFlag = false) (ha : o.aliasName = [c]) (ht : text.take 2 ≠ dashes) :
    Spells o [['-', c], text] text
  | shortAttached (hf : o.isFlag = false) (ha : o.aliasName = [c]) (ht : text ≠ []) :
    Spells o ['-' :: c :: text] text

theorem Spells.ne_nil {o : CommandOption τ} (h : Spells o tokens text) : tokens ≠ [] := by
  cases h <;> exact List.cons_ne_nil _ _

/-- An option with the arguments that spell it and the text of its value. -/
structure Usage (τ : Type) where
  option : CommandOption τ
  tokens : List Text
  text : Text

/-- Tables with distinct names, aliases of one character and targets. -/
structure OptionTable (options : List (CommandOption τ)) : Prop where
  names : (options.map (·.name)).Nodup
  named : ∀ o ∈ options, o.name ≠ [] ∧ '=' ∉ o.name
  aliases : ∀ o ∈ options, o.aliasName = [] ∨ ∃ c, o.aliasName = [c]
  distinct : options.Pairwise fun o o' => o.aliasName ≠ [] → o.aliasName ≠ o'.aliasName
  targets : (options.map (·.target)).Nodup

/-- The arguments after the program name, read as usages and possibly a final `--`. -/
structure Sentence (options : List (CommandOption τ)) (args : List Text)
    (usages : List (Usage τ)) : Prop where
  known : ∀ u ∈ usages, u.option ∈ options
  spelled : ∀ u ∈ usages, Spells u.option u.tokens u.text
  once : (usages.map (·.option)).Nodup
  converted : ∀ u ∈ usages, ∃ v, u.option.assign u.text = .ok v
  args : args = usages.flatMap (·.tokens) ∨ args = usages.flatMap (·.tokens) ++ [dashes]

variable {options : List (CommandOption τ)} {o o' : CommandOption τ} {i j : Nat}

theorem readOption_long (h : '=' ∉ name) : readOption (dashes ++ name) = ⟨true, name, none⟩ := by
  have htake : (dashes ++ name).take 2 = dashes := rfl
  have hidx : (dashes ++ name).idxOf? '=' = none := by
    rw [List.idxOf?_eq_none_iff]
    exact fun hmem => (List.mem_append.1 hmem).elim (by decide) h
  rw [readOption, if_pos htake, hidx]
  rfl

theorem idxOf?_append_cons [BEq α] [LawfulBEq α] {a : α} {l : List α} (h : a ∉ l)
    (r : List α) : (l ++ a :: r).idxOf? a = some l.length := by
  induction l with
  | nil => rw [List.nil_append, List.idxOf?_cons, if_pos (beq_self_eq_true a), List.length_nil]
  | cons b l ih =>
    rw [List.mem_cons, not_or] at h
    rw [List.cons_append, List.idxOf?_cons, if_neg fun hb => h.1 (eq_of_beq hb).symm, ih h.2]
    rfl

theorem readOption_longAttached (h : '=' ∉ name) (text : Text) :
    readOption (dashes ++ name ++ '=' :: text) = ⟨true, name, some text⟩ := by
  have htake : (dashes ++ name ++ '=' :: text).take 2 = dashes := rfl
  have hmem : '=' ∉ dashes ++ name := fun hmem => (List.mem_append.1 hmem).elim (by decide) h
  have hname : ((dashes ++ name ++ '=' :: text).drop 2).take (name.length) = name := by
    change (name ++ '=' :: text).take name.length = name
    exact List.take_left
  have htext : (dashes ++ name ++ '=' :: text).drop ((dashes ++ name).length + 1) = text := by
    rw [List.drop_append]
    simp
  rw [readOption, if_pos htake, idxOf?_append_cons hmem]
  simp only [htext, OptionArg.mk.injEq, true_and, and_true]
  exact hname

theorem readOption_short (hc : c ≠ '-') : readOption ['-', c] = ⟨false, [c], none⟩ := by
  have htake : ['-', c].take 2 ≠ dashes := fun h => hc (List.cons.inj (List.cons.inj h).2).1
  rw [readOption, if_neg htake]
  rfl

theorem readOption_shortAttached (hc : c ≠ '-') (ht : text ≠ []) :
    readOption ('-' :: c :: text) = ⟨false, [c], some text⟩ := by
  have htake : ('-' :: c :: text).take 2 ≠ dashes :=
    fun h => hc (List.cons.inj (List.cons.inj h).2).1
  rw [readOption, if_neg htake, if_pos]
  · rfl
  · have := List.length_pos_iff.2 ht
    simp only [List.length_cons]
    omega

/-- Every argument that passes the checks is one of these four. -/
theorem readOption_cases {arg : Text} (hlen : 2 ≤ arg.length) (hhead : arg.head? = some '-') :
    (∃ name, '=' ∉ name ∧ arg = dashes ++ name ∧ readOption arg = ⟨true, name, none⟩) ∨
    (∃ name text, '=' ∉ name ∧ arg = dashes ++ name ++ '=' :: text ∧
      readOption arg = ⟨true, name, some text⟩) ∨
    (∃ c, arg = ['-', c] ∧ readOption arg = ⟨false, [c], none⟩) ∨
    ∃ c text, text ≠ [] ∧ arg = '-' :: c :: text ∧ readOption arg = ⟨false, [c], some text⟩ := by
  cases arg with
  | nil => exact absurd hlen (by decide)
  | cons a rest =>
    obtain rfl : a = '-' := Option.some.inj hhead
    cases rest with
    | nil => exact absurd hlen (by decide)
    | cons c rest =>
      by_cases hc : c = '-'
      · subst hc
        by_cases hmem : '=' ∈ rest
        · obtain ⟨name, text, rfl, hname⟩ := List.eq_append_cons_of_mem hmem
          exact .inr (.inl ⟨name, text, hname, rfl, readOption_longAttached hname text⟩)
        · exact .inl ⟨rest, hmem, rfl, readOption_long hmem⟩
      · cases rest with
        | nil => exact .inr (.inr (.inl ⟨c, rfl, readOption_short hc⟩))
        | cons x rest =>
          exact .inr (.inr (.inr ⟨c, _, List.cons_ne_nil x rest, rfl,
            readOption_shortAttached hc (List.cons_ne_nil x rest)⟩))

theorem findOption_some {arg : OptionArg} (h : findOption options arg = some (o, index)) :
    options[index]? = some o ∧
      (if arg.longOption then o.name else o.aliasName) = arg.name := by
  rw [findOption] at h
  have hmem := List.mem_of_find?_eq_some h
  have hp := List.find?_some h
  refine ⟨List.mem_zipIdx_iff_getElem?.1 hmem, ?_⟩
  cases hl : arg.longOption with
  | true => simpa [hl] using hp
  | false => simpa [hl] using hp

theorem OptionTable.name_inj (h : OptionTable options) (ho : options[i]? = some o)
    (ho' : options[j]? = some o') (hname : o.name = o'.name) : i = j := by
  have hlt : i < (options.map (·.name)).length :=
    (List.length_map _).symm ▸ (List.getElem?_eq_some_iff.1 ho).1
  refine (List.getElem?_inj hlt h.names).1 ?_
  rw [List.getElem?_map, List.getElem?_map, ho, ho', Option.map_some, Option.map_some, hname]

theorem OptionTable.alias_inj (h : OptionTable options) (ho : options[i]? = some o)
    (ho' : options[j]? = some o') (halias : o.aliasName = o'.aliasName)
    (hne : o.aliasName ≠ []) : i = j := by
  obtain ⟨hi, rfl⟩ := List.getElem?_eq_some_iff.1 ho
  obtain ⟨hj, rfl⟩ := List.getElem?_eq_some_iff.1 ho'
  have hpair := List.pairwise_iff_getElem.1 h.distinct
  rcases Nat.lt_trichotomy i j with hlt | heq | hlt
  · exact absurd halias (hpair i j hi hj hlt hne)
  · exact heq
  · exact absurd halias.symm (hpair j i hj hi hlt (halias ▸ hne))

/-- In a well-formed table a name belongs to one option, and so does an alias. -/
theorem OptionTable.findOption (h : OptionTable options) {arg : OptionArg} {index : Nat}
    (ho : options[index]? = some o)
    (hname : (if arg.longOption then o.name else o.aliasName) = arg.name) (hne : arg.name ≠ []) :
    findOption options arg = some (o, index) := by
  have hsome : (MmMem.findOption options arg).isSome := by
    rw [MmMem.findOption, List.find?_isSome]
    refine ⟨(o, index), List.mem_zipIdx_iff_getElem?.2 ho, ?_⟩
    cases hl : arg.longOption with
    | true => simpa [hl] using hname
    | false => simpa [hl] using hname
  obtain ⟨⟨o', index'⟩, hfound⟩ := Option.isSome_iff_exists.1 hsome
  obtain ⟨ho', hname'⟩ := findOption_some hfound
  rw [hfound]
  have hindex : index' = index := by
    cases hl : arg.longOption with
    | true =>
      rw [hl, if_pos rfl] at hname hname'
      exact h.name_inj ho' ho (hname'.trans hname.symm)
    | false =>
      rw [hl, if_neg Bool.false_ne_true] at hname hname'
      exact h.alias_inj ho' ho (hname'.trans hname.symm) (hname' ▸ hne)
  subst hindex
  rw [ho] at ho'
  rw [Option.some.inj ho']

theorem OptionTable.target_inj (h : OptionTable options) (ho : o ∈ options) (ho' : o' ∈ options)
    (ht : o.target = o'.target) : o = o' := List.inj_on_of_nodup_map h.targets ho ho' ht

theorem Declaration.option_target (d : Declaration τ) : d.option.target = d.target := by
  cases d with
  | value names target type defaultValue =>
    simp only [Declaration.option, CommandOption.add]
    split <;> rfl
  | flag names target =>
    simp only [Declaration.option, CommandOption.add]
    split <;> rfl

theorem Declaration.option_value (names : Text) (target : τ) (type : IntType) (n : Int) :
    (Declaration.value names target type n).option.isFlag = false ∧
      (Declaration.value names target type n).option.assign = type.assign := by
  simp only [Declaration.option, CommandOption.add]
  split <;> exact ⟨rfl, rfl⟩

theorem Declaration.option_flag (names : Text) (target : τ) :
    (Declaration.flag names target).option.isFlag = true ∧
      ∀ text, (Declaration.flag names target).option.assign text = .ok 1 := by
  simp only [Declaration.option, CommandOption.add]
  split <;> exact ⟨rfl, fun _ => rfl⟩

/-- The options seen so far are those used so far. -/
structure Tracks (options used : List (CommandOption τ)) (seen : List Bool) : Prop where
  length : seen.length = options.length
  mark : ∀ i o, options[i]? = some o → (seen.getD i false = true ↔ o ∈ used)

theorem Tracks.start (options : List (CommandOption τ)) :
    Tracks options [] (List.replicate options.length false) where
  length := List.length_replicate
  mark i o _ := by
    refine iff_of_false ?_ List.not_mem_nil
    rw [List.getD_eq_getElem?_getD, List.getElem?_replicate]
    split <;> exact Bool.false_ne_true

theorem Tracks.use (ht : Tracks options used seen) (h : OptionTable options)
    (ho : options[index]? = some o) : Tracks options (o :: used) (seen.set index true) where
  length := by rw [List.length_set, ht.length]
  mark i o' ho' := by
    by_cases hi : i = index
    · subst hi
      rw [ho] at ho'
      obtain rfl := Option.some.inj ho'
      have hlt : i < seen.length := ht.length ▸ (List.getElem?_eq_some_iff.1 ho).1
      rw [List.getD_eq_getElem?_getD, List.getElem?_set_self hlt, Option.getD_some]
      exact iff_of_true rfl List.mem_cons_self
    · rw [List.getD_eq_getElem?_getD, List.getElem?_set_ne (Ne.symm hi),
        ← List.getD_eq_getElem?_getD, ht.mark i o' ho', List.mem_cons]
      refine ⟨.inr, fun hor => hor.resolve_left ?_⟩
      rintro rfl
      exact hi (h.name_inj ho' ho rfl)

/-- A sentence over the options not used yet. -/
structure Continues (options used : List (CommandOption τ)) (args : List Text)
    (usages : List (Usage τ)) : Prop extends Sentence options args usages where
  fresh : ∀ u ∈ usages, u.option ∉ used

theorem Continues.nil (h : args = [] ∨ args = [dashes]) : Continues options used args [] where
  known _ hu := absurd hu List.not_mem_nil
  spelled _ hu := absurd hu List.not_mem_nil
  once := List.nodup_nil
  converted _ hu := absurd hu List.not_mem_nil
  args := h
  fresh _ hu := absurd hu List.not_mem_nil

theorem Continues.cons {u : Usage τ} {used : List (CommandOption τ)}
    (h : Continues options (u.option :: used) args usages)
    (hknown : u.option ∈ options) (hfresh : u.option ∉ used) (hs : Spells u.option u.tokens u.text)
    (hv : u.option.assign u.text = .ok v) :
    Continues options used (u.tokens ++ args) (u :: usages) where
  known x hx := by
    rcases List.mem_cons.1 hx with rfl | hx
    · exact hknown
    · exact h.known x hx
  spelled x hx := by
    rcases List.mem_cons.1 hx with rfl | hx
    · exact hs
    · exact h.spelled x hx
  once := by
    refine List.nodup_cons.2 ⟨fun hmem => ?_, h.once⟩
    obtain ⟨x, hx, heq⟩ := List.mem_map.1 hmem
    exact h.fresh x hx (heq ▸ List.mem_cons_self)
  converted x hx := by
    rcases List.mem_cons.1 hx with rfl | hx
    · exact ⟨v, hv⟩
    · exact h.converted x hx
  args := by
    rw [List.flatMap_cons, List.append_assoc]
    exact h.args.imp (congrArg (u.tokens ++ ·)) (congrArg (u.tokens ++ ·))
  fresh x hx := by
    rcases List.mem_cons.1 hx with rfl | hx
    · exact hfresh
    · exact fun hmem => h.fresh x hx (List.mem_cons_of_mem _ hmem)

theorem Sentence.single {u : Usage τ} (hu : u.option ∈ options)
    (hs : Spells u.option u.tokens u.text) (hv : u.option.assign u.text = .ok v)
    (h : rest = [] ∨ rest = [dashes]) : Sentence options (u.tokens ++ rest) [u] :=
  (Continues.cons (.nil h) hu List.not_mem_nil hs hv).toSentence

theorem Continues.uncons {u : Usage τ} (h : Continues options used args (u :: usages)) :
    ∃ rest, args = u.tokens ++ rest ∧ Continues options (u.option :: used) rest usages := by
  have hrest : ∃ rest, args = u.tokens ++ rest ∧
      (rest = usages.flatMap (·.tokens) ∨ rest = usages.flatMap (·.tokens) ++ [dashes]) := by
    rcases h.args with heq | heq
    · exact ⟨_, heq, .inl rfl⟩
    · exact ⟨_, heq.trans (by rw [List.flatMap_cons, List.append_assoc]), .inr rfl⟩
  obtain ⟨rest, hargs, htail⟩ := hrest
  obtain ⟨hnotin, honce⟩ := List.nodup_cons.1 h.once
  refine ⟨rest, hargs, ⟨⟨fun x hx => h.known x (List.mem_cons_of_mem u hx),
    fun x hx => h.spelled x (List.mem_cons_of_mem u hx), honce,
    fun x hx => h.converted x (List.mem_cons_of_mem u hx), htail⟩, fun x hx hmem => ?_⟩⟩
  rcases List.mem_cons.1 hmem with heq | hmem
  · exact hnotin (List.mem_map.2 ⟨x, hx, heq⟩)
  · exact h.fresh x (List.mem_cons_of_mem u hx) hmem

end MmMem

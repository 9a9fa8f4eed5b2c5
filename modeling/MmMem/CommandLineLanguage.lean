import MmMem.CommandGrammar

namespace MmMem
open Prog
set_option autoImplicit true

/-- Where an option's value comes from. -/
inductive ValueAt (argv : List Text) (i : Nat) (o : CommandOption τ) :
    Option Text → Text → Nat → Prop where
  | flag (hf : o.isFlag = true) : ValueAt argv i o none [] i
  | attached (hf : o.isFlag = false) (text : Text) : ValueAt argv i o (some text) text i
  | detached (hf : o.isFlag = false) (hget : argv[i + 1]? = some text)
    (ht : text.take 2 ≠ dashes) : ValueAt argv i o none text (i + 1)

/-- An argument and the option it was found for, with the value attached to it. -/
inductive Fits (o : CommandOption τ) : Text → Option Text → Prop where
  | long : Fits o (dashes ++ o.name) none
  | longAttached (text : Text) : Fits o (dashes ++ o.name ++ '=' :: text) (some text)
  | short (ha : o.aliasName = [c]) : Fits o ['-', c] none
  | shortAttached (ha : o.aliasName = [c]) (ht : text ≠ []) :
    Fits o ('-' :: c :: text) (some text)

variable {τ : Type} {options used : List (CommandOption τ)} {o : CommandOption τ}
  {argv : List Text} {arg text : Text} {attached : Option Text} {i index : Nat}

theorem readArg_eq (h : argv[i]? = some arg) : readArg argv i = .done arg := by
  rw [readArg, h]

theorem drop_eq_cons (h : argv[i]? = some arg) : argv.drop i = arg :: argv.drop (i + 1) := by
  obtain ⟨hi, rfl⟩ := List.getElem?_eq_some_iff.1 h
  exact List.drop_eq_getElem_cons hi

theorem getElem?_of_drop (h : argv.drop i = arg :: rest) : argv[i]? = some arg := by
  rw [← Nat.add_zero i, ← List.getElem?_drop, h, List.getElem?_cons_zero]

theorem drop_succ_of_drop (h : argv.drop i = arg :: rest) : argv.drop (i + 1) = rest := by
  rw [← List.drop_drop, h, List.drop_one, List.tail_cons]

theorem ValueAt.optionText (h : ValueAt argv i o attached text j) :
    optionText argv i o attached = .done (text, j) := by
  cases h with
  | flag hf => rw [MmMem.optionText, if_pos hf]
  | attached hf text => rw [MmMem.optionText, if_neg (hf ▸ Bool.false_ne_true)]
  | detached hf hget ht =>
    have hlt := (List.getElem?_eq_some_iff.1 hget).1
    rw [MmMem.optionText, if_neg (hf ▸ Bool.false_ne_true)]
    rw [if_neg (Nat.ne_of_lt hlt), readArg_eq hget, Run.done_bind, if_neg ht]
    rfl

theorem optionText_spec (hi : i < argv.length) (o : CommandOption τ) (attached : Option Text) :
    (∃ text j, ValueAt argv i o attached text j) ∨
      ∃ message, optionText argv i o attached = .fault (.invalidArgument message) := by
  cases hf : o.isFlag with
  | true =>
    cases attached with
    | none => exact .inl ⟨_, _, .flag hf⟩
    | some text =>
      refine .inr ⟨"option takes no value: --".toList ++ o.name, ?_⟩
      rw [optionText, if_pos hf]
  | false =>
    cases attached with
    | some text => exact .inl ⟨_, _, .attached hf text⟩
    | none =>
      by_cases hlast : i + 1 = argv.length
      · refine .inr ⟨"missing value: --".toList ++ o.name, ?_⟩
        rw [optionText, if_neg (hf ▸ Bool.false_ne_true)]
        exact if_pos hlast
      · have hnext : i + 1 < argv.length := by omega
        have hget := List.getElem?_eq_getElem hnext
        by_cases ht : argv[i + 1].take 2 = dashes
        · refine .inr ⟨"missing value: --".toList ++ o.name, ?_⟩
          rw [optionText, if_neg (hf ▸ Bool.false_ne_true)]
          rw [if_neg hlast, readArg_eq hget, Run.done_bind, if_pos ht]
        · exact .inl ⟨_, _, .detached hf hget ht⟩

theorem fits_of_find (hlen : 2 ≤ arg.length) (hhead : arg.head? = some '-')
    (h : findOption options (readOption arg) = some (o, index)) :
    Fits o arg (readOption arg).attached := by
  obtain ⟨-, hname⟩ := findOption_some h
  rcases readOption_cases hlen hhead with ⟨name, -, rfl, hr⟩ | ⟨name, text, -, rfl, hr⟩ |
      ⟨c, rfl, hr⟩ | ⟨c, text, ht, rfl, hr⟩
  · rw [hr] at hname ⊢
    obtain rfl : o.name = name := hname
    exact .long
  · rw [hr] at hname ⊢
    obtain rfl : o.name = name := hname
    exact .longAttached text
  · rw [hr] at hname ⊢
    exact .short hname
  · rw [hr] at hname ⊢
    exact .shortAttached hname ht

theorem Fits.spells (h : Fits o arg attached) (hv : ValueAt argv i o attached text j)
    (hget : argv[i]? = some arg) :
    ∃ tokens, Spells o tokens text ∧ argv.drop i = tokens ++ argv.drop (i + tokens.length) ∧
      j + 1 = i + tokens.length := by
  have hdrop := drop_eq_cons hget
  cases hv with
  | flag hf =>
    cases h with
    | long => exact ⟨_, .longFlag hf, hdrop, rfl⟩
    | short ha => exact ⟨_, .shortFlag hf ha, hdrop, rfl⟩
  | attached hf text =>
    cases h with
    | longAttached => exact ⟨_, .longAttached hf text, hdrop, rfl⟩
    | shortAttached ha ht => exact ⟨_, .shortAttached hf ha ht, hdrop, rfl⟩
  | detached hf hnext ht =>
    rw [drop_eq_cons hnext] at hdrop
    cases h with
    | long => exact ⟨_, .longDetached hf ht, hdrop, rfl⟩
    | short ha => exact ⟨_, .shortDetached hf ha ht, hdrop, rfl⟩

/-- What the loop makes of the first argument of a usage. -/
structure Found (options : List (CommandOption τ)) (argv : List Text) (i : Nat)
    (o : CommandOption τ) (index : Nat) (arg text : Text) (j : Nat) : Prop where
  get : argv[i]? = some arg
  length : 2 ≤ arg.length
  head : arg.head? = some '-'
  ne : arg ≠ dashes
  find : findOption options (readOption arg) = some (o, index)
  value : ValueAt argv i o (readOption arg).attached text j

theorem dashes_append_ne (h : name ≠ []) : dashes ++ name ≠ dashes := fun heq =>
  h (List.append_right_eq_self.1 heq)

theorem Spells.found (h : OptionTable options) (ho : options[index]? = some o)
    (hdash : o.aliasName ≠ ['-']) (hs : Spells o tokens text) (hd : argv.drop i = tokens ++ rest) :
    ∃ arg j, Found options argv i o index arg text j ∧ j + 1 = i + tokens.length := by
  obtain ⟨hne, heq⟩ := h.named o (List.mem_of_getElem? ho)
  have halias : ∀ c, o.aliasName = [c] → c ≠ '-' := fun c hc hd => hdash (hd ▸ hc)
  have hlong : 2 ≤ (dashes ++ o.name).length := by
    rw [List.length_append]
    exact Nat.le_add_right 2 _
  cases hs with
  | longFlag hf =>
    refine ⟨_, i, ⟨getElem?_of_drop hd, hlong, rfl, dashes_append_ne hne, ?_, ?_⟩, rfl⟩
    · rw [readOption_long heq]
      exact h.findOption ho rfl hne
    · rw [readOption_long heq]
      exact .flag hf
  | shortFlag hf ha =>
    have hc := halias _ ha
    refine ⟨_, i, ⟨getElem?_of_drop hd, Nat.le_refl 2, rfl, fun he => ?_, ?_, ?_⟩, rfl⟩
    · exact hc (List.cons.inj (List.cons.inj he).2).1
    · rw [readOption_short hc]
      exact h.findOption ho ha (List.cons_ne_nil _ _)
    · rw [readOption_short hc]
      exact .flag hf
  | longAttached hf text =>
    refine ⟨_, i, ⟨getElem?_of_drop hd, ?_, rfl, ?_, ?_, ?_⟩, rfl⟩
    · rw [List.length_append]
      exact Nat.le_add_right_of_le hlong
    · rw [List.append_assoc]
      exact dashes_append_ne (List.append_ne_nil_of_left_ne_nil hne _)
    · rw [readOption_longAttached heq]
      exact h.findOption ho rfl hne
    · rw [readOption_longAttached heq]
      exact .attached hf text
  | longDetached hf ht =>
    refine ⟨_, i + 1, ⟨getElem?_of_drop hd, hlong, rfl, dashes_append_ne hne, ?_, ?_⟩, rfl⟩
    · rw [readOption_long heq]
      exact h.findOption ho rfl hne
    · rw [readOption_long heq]
      exact .detached hf (getElem?_of_drop (drop_succ_of_drop hd)) ht
  | shortDetached hf ha ht =>
    have hc := halias _ ha
    refine ⟨_, i + 1, ⟨getElem?_of_drop hd, Nat.le_refl 2, rfl, fun he => ?_, ?_, ?_⟩, rfl⟩
    · exact hc (List.cons.inj (List.cons.inj he).2).1
    · rw [readOption_short hc]
      exact h.findOption ho ha (List.cons_ne_nil _ _)
    · rw [readOption_short hc]
      exact .detached hf (getElem?_of_drop (drop_succ_of_drop hd)) ht
  | shortAttached hf ha ht =>
    have hc := halias _ ha
    refine ⟨_, i, ⟨getElem?_of_drop hd, ?_, rfl, fun he => ?_, ?_, ?_⟩, rfl⟩
    · exact Nat.le_add_left 2 _
    · exact hc (List.cons.inj (List.cons.inj he).2).1
    · rw [readOption_shortAttached hc ht]
      exact h.findOption ho ha (List.cons_ne_nil _ _)
    · rw [readOption_shortAttached hc ht]
      exact .attached hf text

variable [DecidableEq τ] {s : ParseState τ}

/-- One trip over a usage comes to its assignment. -/
theorem Found.parseArg_eq (h : Found options argv s.index o index arg text j) :
    parseArg options argv s = assignOption argv s o index (readOption arg).attached := by
  have hbad : ¬ (arg.length < 2 ∨ arg.head? ≠ some '-' ∨ arg = dashes) := by
    rintro (hlt | hhead | heq)
    · exact absurd h.length (Nat.not_le_of_lt hlt)
    · exact hhead h.head
    · exact h.ne heq
  rw [MmMem.parseArg, readArg_eq h.get, Run.done_bind, if_neg fun hl => h.ne hl.1, if_neg hbad,
    h.find]

theorem Found.parseArg (h : Found options argv s.index o index arg text j)
    (hseen : s.seen.getD index false = false) (hv : o.assign text = .ok v) :
    parseArg options argv s = .done (some ⟨j + 1, s.seen.set index true,
      Function.update s.store o.target v⟩) := by
  rw [h.parseArg_eq]
  simp only [assignOption, hseen, Bool.false_eq_true, if_false, h.value.optionText, Run.done_bind,
    hv, Run.pure_eq]

theorem Found.parseArg_refuses (h : Found options argv s.index o index arg text j)
    (hseen : s.seen.getD index false = false) (hv : o.assign text = .error what) :
    ∃ message, MmMem.parseArg options argv s = .fault (.invalidArgument message) := by
  rw [h.parseArg_eq]
  simp only [assignOption, hseen, Bool.false_eq_true, if_false, h.value.optionText, Run.done_bind,
    hv]
  exact ⟨_, rfl⟩

/-- One trip of the loop: it ends at a final `--`, takes a usage, or throws. -/
theorem parseArg_spec (hi : s.index < argv.length) :
    (argv.drop s.index = [dashes] ∧ parseArg options argv s = .done none) ∨
    (∃ (u : Usage τ) (index : Nat) (v : Int), options[index]? = some u.option ∧
      s.seen.getD index false = false ∧ Spells u.option u.tokens u.text ∧
        u.option.assign u.text = .ok v ∧
      argv.drop s.index = u.tokens ++ argv.drop (s.index + u.tokens.length) ∧
      parseArg options argv s = .done (some ⟨s.index + u.tokens.length, s.seen.set index true,
        Function.update s.store u.option.target v⟩)) ∨
    ∃ message, parseArg options argv s = .fault (.invalidArgument message) := by
  have hget := List.getElem?_eq_getElem hi
  generalize argv[s.index] = arg at hget
  rw [MmMem.parseArg, readArg_eq hget, Run.done_bind]
  by_cases hlast : arg = dashes ∧ s.index + 1 = argv.length
  · refine .inl ⟨?_, if_pos hlast⟩
    rw [drop_eq_cons hget, hlast.1, hlast.2, List.drop_length]
  rw [if_neg hlast]
  by_cases hbad : arg.length < 2 ∨ arg.head? ≠ some '-' ∨ arg = dashes
  · exact .inr (.inr ⟨_, if_pos hbad⟩)
  rw [if_neg hbad]
  obtain ⟨hlen, hhead, -⟩ : 2 ≤ arg.length ∧ arg.head? = some '-' ∧ arg ≠ dashes := by
    simpa only [not_or, Nat.not_lt, ne_eq, not_not] using hbad
  cases hfind : findOption options (readOption arg) with
  | none => exact .inr (.inr ⟨_, rfl⟩)
  | some found =>
    obtain ⟨o, index⟩ := found
    simp only [assignOption]
    cases hseen : s.seen.getD index false with
    | true => exact .inr (.inr ⟨_, rfl⟩)
    | false =>
      rcases optionText_spec hi o (readOption arg).attached with ⟨text, j, hvalue⟩ | ⟨message, hm⟩
      · rw [if_neg Bool.false_ne_true, hvalue.optionText, Run.done_bind]
        cases hv : o.assign text with
        | error what => exact .inr (.inr ⟨_, rfl⟩)
        | ok v =>
          obtain ⟨tokens, hspells, hdrop, hj⟩ :=
            (fits_of_find hlen hhead hfind).spells hvalue hget
          refine .inr (.inl ⟨⟨o, tokens, text⟩, index, v, (findOption_some hfind).1, hseen,
            hspells, hv, hdrop, ?_⟩)
          simp only [hj, Run.pure_eq]
      · rw [if_neg Bool.false_ne_true, hm]
        exact .inr (.inr ⟨message, rfl⟩)

/-- Whatever the arguments, the loop returns having read a sentence, or throws. -/
theorem parseLoop_sound (hw : OptionTable options) (ht : Tracks options used s.seen)
    (hfuel : argv.length - s.index < fuel) :
    ((∃ store, parseLoop options argv fuel s = .done store) ∧
      ∃ usages, Continues options used (argv.drop s.index) usages) ∨
    ∃ message, parseLoop options argv fuel s = .fault (.invalidArgument message) := by
  induction fuel generalizing s used with
  | zero => exact absurd hfuel (Nat.not_lt_zero _)
  | succ fuel ih =>
    rw [parseLoop]
    by_cases hi : s.index < argv.length
    · rw [if_pos hi]
      rcases parseArg_spec hi with ⟨hlast, hp⟩ |
          ⟨u, index, v, ho, hseen, hspells, hv, hdrop, hp⟩ | ⟨message, hp⟩
      · rw [hp]
        exact .inl ⟨⟨_, rfl⟩, [], .nil (.inr hlast)⟩
      · have hpos := List.length_pos_iff.2 hspells.ne_nil
        rw [hp, Run.done_bind]
        rcases ih (s := ⟨s.index + u.tokens.length, s.seen.set index true,
          Function.update s.store u.option.target v⟩) (ht.use hw ho) (by simp only; omega) with
          ⟨hdone, usages, hread⟩ | hthrow
        · refine .inl ⟨hdone, u :: usages, ?_⟩
          rw [hdrop]
          refine hread.cons (List.mem_of_getElem? ho) (fun hmem => ?_) hspells hv
          rw [(ht.mark index u.option ho).2 hmem] at hseen
          cases hseen
        · exact .inr hthrow
      · rw [hp]
        exact .inr ⟨message, rfl⟩
    · rw [if_neg hi]
      exact .inl ⟨⟨_, rfl⟩, [], .nil (.inl (List.drop_of_length_le (Nat.le_of_not_lt hi)))⟩

theorem foldl_update_ne {key : β → τ} {value : β → Int} {l : List β} {x : τ}
    (h : ∀ b ∈ l, key b ≠ x) (store : τ → Int) :
    l.foldl (fun store b => Function.update store (key b) (value b)) store x = store x := by
  induction l generalizing store with
  | nil => rfl
  | cons b l ih =>
    rw [List.foldl_cons, ih fun c hc => h c (List.mem_cons_of_mem b hc)]
    exact Function.update_of_ne (h b List.mem_cons_self).symm ..

theorem foldl_update_mem {key : β → τ} {value : β → Int} {l : List β} {b : β}
    (hnodup : (l.map key).Nodup) (hb : b ∈ l) (store : τ → Int) :
    l.foldl (fun store b => Function.update store (key b) (value b)) store (key b) = value b := by
  induction l generalizing store with
  | nil => exact absurd hb List.not_mem_nil
  | cons a l ih =>
    obtain ⟨ha, hnodup⟩ := List.nodup_cons.1 hnodup
    rw [List.foldl_cons]
    rcases List.mem_cons.1 hb with rfl | hb
    · rw [foldl_update_ne fun c hc heq => ha (List.mem_map.2 ⟨c, hc, heq⟩)]
      exact Function.update_self ..
    · exact ih hnodup hb _

/-- What the usage assigns to its target. -/
def Usage.value (u : Usage τ) : Int :=
  match u.option.assign u.text with
  | .ok v => v
  | .error _ => 0

/-- The targets after these usages. -/
def assignAll (usages : List (Usage τ)) (store : τ → Int) : τ → Int :=
  usages.foldl (fun store u => Function.update store u.option.target u.value) store

omit [DecidableEq τ] in
/-- The next trip is over the usage that comes first, and leaves the rest. -/
theorem Spells.next (hw : OptionTable options) (hdash : ∀ o ∈ options, o.aliasName ≠ ['-'])
    (ht : Tracks options used s.seen) {u : Usage τ} (hknown : u.option ∈ options)
    (hs : Spells u.option u.tokens u.text) (hfresh : u.option ∉ used)
    (hargs : argv.drop s.index = u.tokens ++ rest) :
    ∃ index arg j, options[index]? = some u.option ∧ s.seen.getD index false = false ∧
      Found options argv s.index u.option index arg u.text j ∧ argv.drop (j + 1) = rest ∧
      s.index < j + 1 ∧ s.index < argv.length := by
  obtain ⟨index, ho⟩ := List.getElem?_of_mem hknown
  obtain ⟨arg, j, hfound, hj⟩ := hs.found hw ho (hdash _ hknown) hargs
  have hpos := List.length_pos_iff.2 hs.ne_nil
  refine ⟨index, arg, j, ho, ?_, hfound, ?_, by omega, (List.getElem?_eq_some_iff.1 hfound.get).1⟩
  · rw [← Bool.not_eq_true, ht.mark index u.option ho]
    exact hfresh
  · rw [hj, ← List.drop_drop, hargs, List.drop_left]

/-- Every sentence is read to its end. -/
theorem parseLoop_complete (hw : OptionTable options)
    (hdash : ∀ o ∈ options, o.aliasName ≠ ['-']) (ht : Tracks options used s.seen)
    (hfuel : argv.length - s.index < fuel)
    (h : Continues options used (argv.drop s.index) usages) :
    parseLoop options argv fuel s = .done (assignAll usages s.store) := by
  obtain ⟨fuel, rfl⟩ : ∃ n, fuel = n + 1 := ⟨fuel - 1, by omega⟩
  induction usages generalizing s used fuel with
  | nil =>
    rw [parseLoop]
    rcases h.args with hargs | hargs
    · have hi : ¬ s.index < argv.length := Nat.not_lt_of_le (List.drop_eq_nil_iff.1 hargs)
      rw [if_neg hi]
      rfl
    · have hget := getElem?_of_drop hargs
      have hi := (List.getElem?_eq_some_iff.1 hget).1
      have hlast : s.index + 1 = argv.length := by
        have hlen := congrArg List.length hargs
        rw [List.length_drop] at hlen
        simp only [List.flatMap_nil, List.nil_append, List.length_singleton] at hlen
        omega
      rw [if_pos hi, parseArg, readArg_eq hget, Run.done_bind, if_pos ⟨rfl, hlast⟩]
      rfl
  | cons u usages ih =>
    obtain ⟨rest, hargs, hrest⟩ := h.uncons
    obtain ⟨index, arg, j, ho, hseen, hfound, hdrop, hlt, hi⟩ :=
      (h.spelled u List.mem_cons_self).next hw hdash ht (h.known u List.mem_cons_self)
        (h.fresh u List.mem_cons_self) hargs
    obtain ⟨v, hv⟩ := h.converted u List.mem_cons_self
    obtain ⟨fuel, rfl⟩ : ∃ n, fuel = n + 1 := ⟨fuel - 1, by omega⟩
    have hvalue : u.value = v := by rw [Usage.value, hv]
    rw [parseLoop, if_pos hi, hfound.parseArg hseen hv, Run.done_bind, assignAll, List.foldl_cons,
      hvalue]
    exact ih (s := ⟨j + 1, s.seen.set index true, Function.update s.store u.option.target v⟩)
      (ht.use hw ho) (hdrop ▸ hrest) _ (by simp only; omega)

/-- Arguments that spell options not used yet, each at most once. -/
structure Written (options used : List (CommandOption τ)) (args : List Text)
    (usages : List (Usage τ)) : Prop where
  known : ∀ u ∈ usages, u.option ∈ options
  spelled : ∀ u ∈ usages, Spells u.option u.tokens u.text
  once : (usages.map (·.option)).Nodup
  fresh : ∀ u ∈ usages, u.option ∉ used
  args : args = usages.flatMap (·.tokens)

omit [DecidableEq τ] in
theorem Written.uncons {u : Usage τ} {args : List Text}
    (h : Written options used args (u :: usages)) :
    ∃ rest, args = u.tokens ++ rest ∧ Written options (u.option :: used) rest usages := by
  obtain ⟨hnotin, honce⟩ := List.nodup_cons.1 h.once
  refine ⟨_, h.args, fun x hx => h.known x (List.mem_cons_of_mem u hx),
    fun x hx => h.spelled x (List.mem_cons_of_mem u hx), honce, fun x hx hmem => ?_, rfl⟩
  rcases List.mem_cons.1 hmem with heq | hmem
  · exact hnotin (List.mem_map.2 ⟨x, hx, heq⟩)
  · exact h.fresh x (List.mem_cons_of_mem u hx) hmem

omit [DecidableEq τ] in
theorem Written.continues {args : List Text} (h : Written options used args usages)
    (hv : ∀ u ∈ usages, ∃ v, u.option.assign u.text = .ok v) :
    Continues options used args usages :=
  ⟨⟨h.known, h.spelled, h.once, hv, .inl h.args⟩, h.fresh⟩

/-- A value that does not convert is refused, wherever it stands. -/
theorem parseLoop_refuses (hw : OptionTable options)
    (hdash : ∀ o ∈ options, o.aliasName ≠ ['-']) (ht : Tracks options used s.seen)
    (hfuel : argv.length - s.index < fuel)
    (h : Written options used (argv.drop s.index) usages) {u : Usage τ} (hu : u ∈ usages)
    (hbad : u.option.assign u.text = .error what) :
    ∃ message, parseLoop options argv fuel s = .fault (.invalidArgument message) := by
  obtain ⟨fuel, rfl⟩ : ∃ n, fuel = n + 1 := ⟨fuel - 1, by omega⟩
  induction usages generalizing s used fuel with
  | nil => exact absurd hu List.not_mem_nil
  | cons first usages ih =>
    obtain ⟨rest, hargs, hrest⟩ := h.uncons
    obtain ⟨index, arg, j, ho, hseen, hfound, hdrop, hlt, hi⟩ :=
      (h.spelled first List.mem_cons_self).next hw hdash ht (h.known first List.mem_cons_self)
        (h.fresh first List.mem_cons_self) hargs
    rw [parseLoop, if_pos hi]
    cases hv : first.option.assign first.text with
    | error what =>
      obtain ⟨message, hp⟩ := hfound.parseArg_refuses hseen hv
      rw [hp]
      exact ⟨message, rfl⟩
    | ok v =>
      have hmem : u ∈ usages := by
        refine (List.mem_cons.1 hu).resolve_left ?_
        rintro rfl
        rw [hbad] at hv
        cases hv
      obtain ⟨fuel, rfl⟩ : ∃ n, fuel = n + 1 := ⟨fuel - 1, by omega⟩
      rw [hfound.parseArg hseen hv, Run.done_bind]
      exact ih (s := ⟨j + 1, s.seen.set index true, Function.update s.store first.option.target v⟩)
        (ht.use hw ho) (hdrop ▸ hrest) hmem _ (by simp only; omega)

/-- Arguments that spell options are accepted if and only if every value converts. -/
theorem parse_written (hw : OptionTable options) (hdash : ∀ o ∈ options, o.aliasName ≠ ['-'])
    (h : Written options [] (argv.drop 1) usages) (store : τ → Int) :
    ((∀ u ∈ usages, ∃ v, u.option.assign u.text = .ok v) ∧
      parse options argv store = .done (assignAll usages store)) ∨
    ((∃ u ∈ usages, ∀ v, u.option.assign u.text ≠ .ok v) ∧
      ∃ message, parse options argv store = .fault (.invalidArgument message)) := by
  have hfuel : argv.length - 1 < argv.length + 1 := by omega
  by_cases hall : ∀ u ∈ usages, ∃ v, u.option.assign u.text = .ok v
  · exact .inl ⟨hall, parseLoop_complete hw hdash (.start options) hfuel (h.continues hall)⟩
  · obtain ⟨u, hu, hbad⟩ := not_forall₂.1 hall
    refine .inr ⟨⟨u, hu, fun v hv => hbad ⟨v, hv⟩⟩, ?_⟩
    cases hv : u.option.assign u.text with
    | ok v => exact absurd ⟨v, hv⟩ hbad
    | error what => exact parseLoop_refuses hw hdash (.start options) hfuel h hu hv

theorem declare_target {declarations : List (Declaration τ)}
    (h : OptionTable (declarations.map (·.option))) (store : τ → Int) {d : Declaration τ}
    (hd : d ∈ declarations) : declare declarations store d.target = d.initial := by
  refine foldl_update_mem ?_ hd store
  have ht := h.targets
  rw [List.map_map] at ht
  exact (List.map_congr_left fun (d : Declaration τ) _ => d.option_target) ▸ ht

/-- The parser accepts exactly its option language and assigns exactly what was written: a
sentence leaves every option it uses with its value and every other one with its default, and
anything else is refused with `std::invalid_argument`. -/
theorem parse_language (declarations : List (Declaration τ)) (argv : List Text) (store₀ : τ → Int)
    (h : OptionTable (declarations.map (·.option)))
    (hdash : ∀ d ∈ declarations, d.option.aliasName ≠ ['-']) :
    let options := declarations.map (·.option)
    let store := declare declarations store₀
    (∀ usages, Sentence options (argv.drop 1) usages →
      ∃ store', parse options argv store = .done store' ∧
        (∀ u ∈ usages, u.option.assign u.text = .ok (store' u.option.target)) ∧
        ∀ d ∈ declarations, (∀ u ∈ usages, u.option ≠ d.option) → store' d.target = d.initial) ∧
    ((¬ ∃ usages, Sentence options (argv.drop 1) usages) →
      ∃ message, parse options argv store = .fault (.invalidArgument message)) := by
  intro options store
  have hdash' : ∀ o ∈ options, o.aliasName ≠ ['-'] := fun o ho => by
    obtain ⟨d, hd, rfl⟩ := List.mem_map.1 ho
    exact hdash d hd
  have hfuel : argv.length - 1 < argv.length + 1 := by omega
  refine ⟨fun usages hs => ⟨assignAll usages store, ?_, fun u hu => ?_, fun d hd hne => ?_⟩,
    fun hno => ?_⟩
  · exact parseLoop_complete h hdash' (.start options) hfuel
      ⟨hs, fun _ _ => List.not_mem_nil⟩
  · have hnodup : (usages.map (·.option.target)).Nodup := by
      rw [show (usages.map (·.option.target)) = (usages.map (·.option)).map (·.target) from
        (List.map_map ..).symm]
      refine hs.once.map_on fun o ho o' ho' ht => ?_
      obtain ⟨u, hu, rfl⟩ := List.mem_map.1 ho
      obtain ⟨u', hu', rfl⟩ := List.mem_map.1 ho'
      exact h.target_inj (hs.known u hu) (hs.known u' hu') ht
    obtain ⟨v, hv⟩ := hs.converted u hu
    have hvalue : u.value = v := by rw [Usage.value, hv]
    have htarget : assignAll usages store u.option.target = u.value :=
      foldl_update_mem hnodup hu store
    rw [htarget, hvalue, hv]
  · have hother : assignAll usages store d.target = store d.target :=
      foldl_update_ne (fun u hu ht => hne u hu (h.target_inj (hs.known u hu)
        (List.mem_map_of_mem hd) (ht.trans d.option_target.symm))) store
    rw [hother]
    exact declare_target h store₀ hd
  · rcases parseLoop_sound (s := ⟨1, _, store⟩) h (.start options) hfuel with
     ⟨-, usages, hread⟩ | hthrow
    · exact absurd ⟨usages, hread.toSentence⟩ hno
    · exact hthrow

/-- A detached value and a final `--`: the other option keeps its default. -/
theorem parse_language_detached :
    let declarations : List (Declaration Bool) :=
      [.value "count,n".toList false ⟨false, 32⟩ 4, .value "delay".toList true ⟨true, 32⟩ (-1)]
    ∃ store', parse (declarations.map (·.option))
        ["test".toList, "-n".toList, "7".toList, "--".toList]
        (declare declarations fun _ => 9) = .done store' ∧ store' false = 7 ∧ store' true = -1 := by
  intro declarations
  have htable : OptionTable (declarations.map (·.option)) := by
    refine ⟨by decide, by decide, ?_, by decide, by decide⟩
    intro o ho
    rcases List.mem_cons.1 ho with rfl | ho
    · exact .inr ⟨'n', rfl⟩
    · obtain rfl := List.mem_singleton.1 ho
      exact .inl rfl
  let count : Usage Bool := ⟨(declarations[0]).option, ["-n".toList, "7".toList], "7".toList⟩
  have hs : Sentence (declarations.map (·.option)) (["-n".toList, "7".toList] ++ [dashes])
      [count] :=
    Sentence.single (u := count) List.mem_cons_self (.shortDetached rfl rfl (by decide)) rfl
      (.inr rfl)
  obtain ⟨store', hp, hvalues, hothers⟩ := (parse_language declarations
    ["test".toList, "-n".toList, "7".toList, "--".toList] (fun _ => 9) htable (by decide)).1 _ hs
  have hvalue := hvalues count List.mem_cons_self
  refine ⟨store', hp, (Except.ok.inj hvalue).symm, ?_⟩
  refine hothers (.value "delay".toList true ⟨true, 32⟩ (-1)) (.tail _ (.head _)) fun u hu heq => ?_
  obtain rfl := List.mem_singleton.1 hu
  exact absurd (congrArg CommandOption.name heq) (by decide)

/-- An option whose alias is `-` cannot be given by it: the sentence `-- 5` is refused. -/
theorem parse_refuses_dash_alias :
    let options : List (CommandOption Unit) :=
      [(Declaration.value "count,-".toList () ⟨false, 32⟩ 4).option]
    OptionTable options ∧
      (∃ usages, Sentence options ["--".toList, "5".toList] usages) ∧
      ∀ store store' : Unit → Int,
        parse options ["test".toList, "--".toList, "5".toList] store ≠ .done store' := by
  intro options
  refine ⟨⟨by decide, by decide, ?_, by decide, by decide⟩, ?_, fun store store' h => ?_⟩
  · intro o ho
    obtain rfl := List.mem_singleton.1 ho
    exact .inr ⟨'-', rfl⟩
  · let count : Usage Unit := ⟨options[0], ["--".toList, "5".toList], "5".toList⟩
    exact ⟨[count], Sentence.single (u := count) List.mem_cons_self
      (.shortDetached rfl rfl (by decide)) rfl (.inl rfl)⟩
  · cases h

end MmMem

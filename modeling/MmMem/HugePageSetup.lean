import MmMem.HugePageSizes
import MmMem.KernelSettingsRetry
import MmMem.RunnerInvariant

namespace MmMem
open Prog
set_option autoImplicit true

/-- What a trip of the loop of `setup_huge_pages` makes of the files. -/
def reserve (size : Nat) (files : HostPath → Int) (entry : Nat × Nat) : HostPath → Int :=
  if entry.2 < 1024 ^ 2 then files
  else Function.update files (.nrHugepages entry.1 size)
    (max (files (.nrHugepages entry.1 size)) (min (2 * 1024 ^ 2) entry.2 / size : Nat))

theorem reserve_other {entry : Nat × Nat} {p : HostPath} (files : HostPath → Int)
    (h : 1024 ^ 2 ≤ entry.2 → p ≠ .nrHugepages entry.1 size) :
    reserve size files entry p = files p := by
  rw [reserve]
  split
  · rfl
  · next hkib => exact Function.update_of_ne (h (Nat.le_of_not_lt hkib)) ..

theorem reserve_self {entry : Nat × Nat} (files : HostPath → Int) (h : 1024 ^ 2 ≤ entry.2) :
    reserve size files entry (.nrHugepages entry.1 size) =
      max (files (.nrHugepages entry.1 size)) (min (2 * 1024 ^ 2) entry.2 / size : Nat) := by
  rw [reserve, if_neg (Nat.not_lt_of_le h), Function.update_self]

theorem reserve_all_other {memory : List (Nat × Nat)} {p : HostPath} (files : HostPath → Int)
    (h : ∀ entry ∈ memory, 1024 ^ 2 ≤ entry.2 → p ≠ .nrHugepages entry.1 size) :
    memory.foldl (reserve size) files p = files p := by
  induction memory generalizing files with
  | nil => rfl
  | cons entry memory ih =>
    rw [List.foldl_cons, ih _ fun e he => h e (List.mem_cons_of_mem entry he),
      reserve_other files (h entry List.mem_cons_self)]

/-- Each eligible node's pool is raised once, from its count before the loop. -/
theorem reserve_all_self {memory : List (Nat × Nat)} {entry : Nat × Nat}
    (hkeys : (memory.map Prod.fst).Nodup) (hentry : entry ∈ memory) (h : 1024 ^ 2 ≤ entry.2)
    (files : HostPath → Int) :
    memory.foldl (reserve size) files (.nrHugepages entry.1 size) =
      max (files (.nrHugepages entry.1 size)) (min (2 * 1024 ^ 2) entry.2 / size : Nat) := by
  induction memory generalizing files with
  | nil => exact absurd hentry List.not_mem_nil
  | cons first memory ih =>
    obtain ⟨hfirst, hkeys⟩ := List.nodup_cons.1 hkeys
    rw [List.foldl_cons]
    rcases List.mem_cons.1 hentry with rfl | hentry
    · rw [reserve_all_other _ fun e he _ heq => hfirst ?_, reserve_self files h]
      obtain ⟨hnid, -⟩ := HostPath.nrHugepages.inj heq
      exact List.mem_map.2 ⟨e, he, hnid.symm⟩
    · rw [ih hkeys hentry, reserve_other files fun _ heq => hfirst ?_]
      obtain ⟨hnid, -⟩ := HostPath.nrHugepages.inj heq
      exact List.mem_map.2 ⟨entry, hentry, hnid⟩

variable {env : Env HostPath} {nodes : List NumaNode} {t : Transaction}

theorem setupNode_files (nodes : List NumaNode) (size : Nat) (f : HostPath → Int)
    (entry : Nat × Nat) :
    Script.Ensures (OnHost fun h => h.files = f) (setupNode env t nodes size entry)
      fun _ => OnHost fun h => h.files = reserve size f entry := by
  apply (boundary_keeps (.onHost _)).ensures.bind
  intro _
  split
  · next hkib =>
    refine Script.Ensures.pure fun w hw => ?_
    rw [OnHost, reserve, if_pos hkib]
    exact hw
  next hkib =>
  cases hp : (hugePagePaths nodes).lookup (entry.1, size) with
  | none => exact Script.Ensures.raise
  | some path =>
    obtain rfl := hugePagePaths_lookup nodes hp
    apply (readInt_meets env _).ensures.bind
    rintro current w ⟨hfiles, hcurrent⟩
    refine (set_files f).mono (fun _ hs => hs) (fun _ s hs => ?_) w hfiles
    rw [OnHost, reserve, if_neg hkib, ← hfiles, hcurrent, hfiles]
    exact hs

/-- The files are the same but for the one-shot actions asked for. -/
def AgreesBut (drop compact : Bool) (before after : HostPath → Int) : Prop :=
  ∀ p, (drop = true → p ≠ .dropCaches) → (compact = true → p ≠ .compactMemory) →
    after p = before p

theorem oneShot_keeps {J : (HostPath → Int) → Prop} {p : HostPath}
    (hJ : b = true → ∀ f x, J f → J (Function.update f p x)) :
    Script.Keeps (OnHost fun h => J h.files)
      (Script.whenever b (KernelSettings.write env t p 1)) := by
  apply Script.Keeps.whenever
  intro hb
  exact write_keeps (.onHost _) fun w x hw => hJ hb w.host.files x hw

theorem setupHugePages_files (env : Env HostPath) (t : Transaction) (nodes : List NumaNode)
    (drop compact : Bool) (f : HostPath → Int) :
    Script.Ensures (OnHost fun h => h.files = f) (setupHugePages env t nodes drop compact)
      fun size w => size = pickHugePageSize nodes (getMemInfo nodes) ∧ size ≠ 0 ∧
        ∃ f', AgreesBut drop compact f f' ∧
          w.host.files = (getMemInfo nodes).foldl (reserve size) f' := by
  have hshots : ∀ b p, (b = true → ∀ q, (drop = true → q ≠ .dropCaches) →
      (compact = true → q ≠ .compactMemory) → q ≠ p) →
      Script.Keeps (OnHost fun h => AgreesBut drop compact f h.files)
        (Script.whenever b (KernelSettings.write env t p 1)) := by
    intro b p hp
    apply oneShot_keeps
    intro hb g x hg q hdrop hcompact
    rw [Function.update_of_ne (hp hb q hdrop hcompact)]
    exact hg q hdrop hcompact
  apply Script.Ensures.bind (Q := fun _ => OnHost fun h => AgreesBut drop compact f h.files)
  · exact (boundary_keeps (.onHost fun h => h.files = f)).ensures.mono (fun _ hw => hw)
      fun _ w hw p _ _ => congrFun hw p
  intro _
  dsimp only
  split
  · exact Script.Ensures.raise
  next hsize =>
  apply (hshots drop _ fun hb q hdrop _ => hdrop hb).ensures.bind
  intro _
  apply (hshots compact _ fun hb q _ hcompact => hcompact hb).ensures.bind
  intro _ w hw
  refine Script.Ensures.bind (forEach_files (setupNode_files nodes _) _ w.host.files)
    (fun _ => ?_) w rfl
  exact Script.Ensures.pure fun s hs => ⟨rfl, hsize, _, hw, hs⟩

theorem setupNode_completes {entry : Nat × Nat}
    (h : ¬ entry.2 < 1024 ^ 2 → (hugePagePaths nodes).lookup (entry.1, size) ≠ none) :
    Script.Completes (Able env t) (setupNode env t nodes size entry) := by
  apply boundary_completes.bind
  intro _
  split
  · exact Script.Completes.pure _ _
  next hkib =>
  cases hp : (hugePagePaths nodes).lookup (entry.1, size) with
  | none => exact absurd hp (h hkib)
  | some path =>
    apply readInt_completes.bind
    intro current
    exact set_completes

theorem setupHugePages_completes (hsize : pickHugePageSize nodes (getMemInfo nodes) ≠ 0)
    (drop compact : Bool) :
    Script.Completes (Able env t) (setupHugePages env t nodes drop compact) := by
  apply boundary_completes.bind
  intro _
  dsimp only
  rw [if_neg hsize]
  apply (Script.Completes.whenever fun _ => write_completes).bind
  intro _
  apply (Script.Completes.whenever fun _ => write_completes).bind
  intro _
  apply Script.Completes.bind
  · apply Script.Completes.forEach
    intro entry hentry
    exact setupNode_completes (eligible_lookup hsize hentry)
  · exact fun _ => Script.Completes.pure _ _

/-- The pools of size `s` of all eligible nodes hold their targets, and nothing else has changed
but for the one-shot actions asked for. -/
structure Provisioned (nodes : List NumaNode) (s : Nat) (drop compact : Bool)
    (before after : HostPath → Int) : Prop where
  target : ∀ node ∈ nodes, ∀ kib, node.Eligible kib →
    1 ≤ min (2 * 1024 ^ 2) kib / s ∧ after (.nrHugepages node.nid s) =
      max (before (.nrHugepages node.nid s)) (min (2 * 1024 ^ 2) kib / s : Nat)
  others : ∀ p, (∀ node ∈ nodes, ∀ kib, node.Eligible kib → p ≠ .nrHugepages node.nid s) →
    (drop = true → p ≠ .dropCaches) → (compact = true → p ≠ .compactMemory) → after p = before p
  grows : ∀ nid size, before (.nrHugepages nid size) ≤ after (.nrHugepages nid size)

theorem reserve_le (size : Nat) (files : HostPath → Int) (entry : Nat × Nat) (p : HostPath) :
    files p ≤ reserve size files entry p := by
  by_cases hp : 1024 ^ 2 ≤ entry.2 ∧ p = .nrHugepages entry.1 size
  · obtain ⟨hkib, rfl⟩ := hp
    rw [reserve_self files hkib]
    exact Int.le_max_left _ _
  · rw [reserve_other files fun hkib heq => hp ⟨hkib, heq⟩]

theorem reserve_all_le (size : Nat) (memory : List (Nat × Nat)) (files : HostPath → Int)
    (p : HostPath) : files p ≤ memory.foldl (reserve size) files p := by
  induction memory generalizing files with
  | nil => exact Int.le_refl _
  | cons entry memory ih => exact Int.le_trans (reserve_le size files entry p) (ih _)

theorem Provisioned.of_reserve (hids : DistinctIds nodes) (hs : Offered nodes s)
    (hagree : AgreesBut drop compact before files)
    (hafter : after = (getMemInfo nodes).foldl (reserve s) files) :
    Provisioned nodes s drop compact before after := by
  have hpool : ∀ nid size, files (.nrHugepages nid size) = before (.nrHugepages nid size) :=
    fun nid size => hagree _ (fun _ => nofun) fun _ => nofun
  subst hafter
  constructor
  · intro node hnode kib hkib
    refine ⟨hs.one_le hkib.2, ?_⟩
    have hentry : (node.nid, kib) ∈ getMemInfo nodes :=
      mem_getMemInfo.2 ⟨node, hnode, rfl, hkib.1⟩
    rw [reserve_all_self (getMemInfo_keys hids) hentry hkib.2, hpool]
  · intro p hp hdrop hcompact
    rw [reserve_all_other, hagree p hdrop hcompact]
    rintro ⟨nid, kib⟩ hentry hkib
    obtain ⟨node, hnode, rfl, htotal⟩ := mem_getMemInfo.1 hentry
    exact hp node hnode kib ⟨htotal, hkib⟩
  · intro nid size
    rw [← hpool]
    exact reserve_all_le s _ files _

/-- With nothing in its way, `setup_huge_pages` provisions the largest size that every eligible
node offers and touches nothing else, and a restoration takes it back; if there is no such size,
it raises and writes nothing. -/
theorem setup_meets_target (env : Env HostPath) (nodes : List NumaNode) (drop compact : Bool)
    (initial : HostPath → Int) (w : World HostPath) (hids : DistinctIds nodes)
    (hable : Able env .hugeSettings w) (hr : Recoverable HostPath.owner initial w.host)
    (hempty : (w.host.transaction .hugeSettings).original = []) :
    let r := setupHugePages env .hugeSettings nodes drop compact w
    ((∃ s, Offered nodes s) → ∃ s w', (Offered nodes s ∧ ∀ s', Offered nodes s' → s' ≤ s) ∧
      r = (.ok s, w') ∧ Provisioned nodes s drop compact w.host.files w'.host.files ∧
      Able env .hugeSettings w' ∧ ∀ env' : Env HostPath, Able env' .hugeSettings w' →
        ∃ w'', KernelSettings.restore env' .hugeSettings w' = (.ok (), w'') ∧
          ∀ nid size, w''.host.files (.nrHugepages nid size) =
            w.host.files (.nrHugepages nid size)) ∧
    ((¬ ∃ s, Offered nodes s) →
      (∃ message, r.1 = .error (.error .runtimeError message)) ∧
        r.2.host = w.host ∧ r.2.log = w.log) := by
  intro r
  have hold : ∀ nid size,
      w.host.files (.nrHugepages nid size) = initial (.nrHugepages nid size) := by
    intro nid size
    refine (hr.held _ _ rfl).resolve_right fun hmem => ?_
    rw [hempty] at hmem
    cases hmem
  rcases pickHugePageSize_spec hids with ⟨hzero, hnone⟩ | ⟨hsize, hoffered, hmax⟩
  · refine ⟨fun h => absurd h hnone, fun _ => ?_⟩
    have hraise : r = (.error (.error .runtimeError
        "No supported huge-page size is available on all eligible NUMA nodes"),
        { w with step := w.step + 1 }) := by
      simp only [r, setupHugePages]
      rw [Script.bind_ok _ (boundary_ok hable.uninterrupted), if_pos hzero]
      rfl
    rw [hraise]
    exact ⟨⟨_, rfl⟩, rfl, rfl⟩
  · refine ⟨fun _ => ?_, fun h => absurd ⟨_, hoffered⟩ h⟩
    have hsteady := Steady.recoverable env initial
    have hkeeps := hsteady.configures.setupHugePages trivial nodes drop compact w hr
    have hfiles := setupHugePages_files env .hugeSettings nodes drop compact w.host.files w rfl
    obtain ⟨s, w', heq, hable'⟩ := (setupHugePages_completes hsize drop compact).returns hable
    rw [heq] at hkeeps hfiles
    obtain ⟨rfl, -, f', hagree, hafter⟩ := hfiles
    refine ⟨_, w', ⟨hoffered, hmax⟩, heq, .of_reserve hids hoffered hagree hafter, hable', ?_⟩
    intro env' henv'
    obtain ⟨w'', hrestore, hback⟩ := henv'.restore_brings hkeeps
    exact ⟨w'', hrestore, fun nid size => (hback _ rfl).trans (hold nid size).symm⟩

/-- Two nodes with ids 2 and 7, a larger pool on the first. -/
theorem setup_meets_target_sparse :
    let env : Env HostPath := ⟨fun _ _ => [], fun _ _ => none, fun _ _ => .takes,
      fun _ _ => none, fun _ => "nr_hugepages"⟩
    let nodes : List NumaNode := [⟨2, some 4194304, [2048]⟩, ⟨7, some 4194304, [2048]⟩]
    let files : HostPath → Int := fun p => if p = .nrHugepages 2 2048 then 2048 else 0
    let w : World HostPath := ⟨.fresh files (some []), fun _ => false, .body, 0, []⟩
    ∃ s w', setupHugePages env .hugeSettings nodes false false w = (.ok s, w') ∧
      Provisioned nodes s false false files w'.host.files := by
  intro env nodes files w
  have hable : Able env .hugeSettings w := ⟨⟨fun _ => rfl, fun _ => rfl, fun _ => rfl⟩, nofun⟩
  have hsizes : Offered nodes 2048 := by
    refine ⟨.inl rfl, ⟨_, List.mem_cons_self, _, rfl, by decide⟩, ?_⟩
    intro node hnode kib _
    rcases List.mem_cons.1 hnode with rfl | hnode
    · exact List.mem_singleton_self _
    · rw [List.mem_singleton.1 hnode]
      exact List.mem_singleton_self _
  have hids : DistinctIds nodes := show [2, 7].Nodup by decide
  obtain ⟨s, w', -, heq, hprovisioned, -⟩ := (setup_meets_target env nodes false false files w
    hids hable (.fresh _ _ _) rfl).1 ⟨2048, hsizes⟩
  exact ⟨s, w', heq, hprovisioned⟩

end MmMem

import DnsFixtures.LabEnvironment

/-!
# The environment file and the printed environment

`loadLabEnvironment_apply`: a variable of the list keeps the value it has, and gets that of its first
assignment in the file otherwise.  `printEnvironment_load`: so what `lab.sh environment` prints is an
environment file, which gives the same environment again.
-/

namespace DnsFixtures

open Dns

/-! ### The loop -/

theorem loadLoop_eq (ls : List Octets) (env : Environment) :
    loadLoop ls env = (ls.filterMap lineAssignment).foldl exportVariable env := by
  induction ls generalizing env with
  | nil => rfl
  | cons line rest ih =>
    rw [loadLoop]
    cases h : lineAssignment line with
    | none => rw [List.filterMap_cons_none h, ih]
    | some a =>
      rw [List.filterMap_cons_some h, List.foldl_cons]
      exact ih _

/-- **What is loaded**: the environment comes first, then the first assignment of the file. -/
theorem loadLabEnvironment_apply (text : Octets) (env : Environment) (name : Octets) :
    loadLabEnvironment (some text) env name
      = if name ∈ LAB_VARIABLES.map textOctets ∧ env name = none
        then ((Shell.lines 10 text).filterMap lineAssignment).lookup name else env name := by
  rw [loadLabEnvironment, loadLoop_eq]
  exact Shell.assignAll_apply (· ∈ LAB_VARIABLES.map textOctets) _ env name

/-! ### The printed lines -/

/-- The value can be printed: no newline, and no backslash. -/
structure Printable (value : Octets) : Prop where
  newline : 10 ∉ value
  backslash : 92 ∉ value

theorem printable_expand {env : Environment} {name : String} {default : Octets}
    (henv : ∀ value ∈ env (textOctets name), Printable value) (hdefault : Printable default) :
    Printable (expand env name default) := by
  unfold expand
  cases h : env (textOctets name) with
  | none => exact hdefault
  | some value =>
    dsimp only
    split_ifs
    · exact hdefault
    · exact henv value h

theorem substitution_of_not_mem {value : Octets} (h : 10 ∉ value) :
    substitution (value ++ [10]) = value := by
  have hdrop : (value ++ [10]).reverse.dropWhile (· = 10) = value.reverse := by
    rw [List.reverse_append, List.reverse_singleton, List.singleton_append,
      List.dropWhile_cons_of_pos (by simp)]
    cases hrev : value.reverse with
    | nil => rfl
    | cons b bs =>
      have hb : b ≠ 10 := fun hb => h (List.mem_reverse.mp (hrev ▸ hb ▸ List.mem_cons_self))
      rw [List.dropWhile_cons_of_neg (by simpa using hb)]
  rw [substitution, hdrop, List.reverse_reverse]

/-- The names of the printed entries are those of the list, and can be read. -/
structure ReadableEntry (entry : String × Octets) : Prop where
  mem : entry.1 ∈ LAB_VARIABLES
  value : Printable entry.2

theorem readable_labVariables : ∀ name ∈ LAB_VARIABLES, 61 ∉ textOctets name ∧
    10 ∉ textOctets name ∧ 92 ∉ textOctets name ∧ textOctets name ≠ [] ∧
      (textOctets name).head? ≠ some 35 := by decide

theorem textOctets_injOn_labVariables : ∀ name ∈ LAB_VARIABLES, ∀ name' ∈ LAB_VARIABLES,
    textOctets name = textOctets name' → name = name' := by decide

/-- A printed line is read as its entry. -/
theorem lineAssignment_entryLine {entry : String × Octets} (h : ReadableEntry entry) :
    lineAssignment (entryLine entry) = some (textOctets entry.1, entry.2) := by
  obtain ⟨heq, -, -, hne, hhash⟩ := readable_labVariables entry.1 h.mem
  rw [lineAssignment, if_neg, entryLine, Shell.cut_append_cons heq]
  rw [entryLine, List.head?_append_of_ne_nil _ hne]
  exact hhash

theorem not_mem_entryLine {entry : String × Octets} (h : ReadableEntry entry) :
    10 ∉ entryLine entry ∧ 92 ∉ entryLine entry := by
  obtain ⟨-, hnewline, hbackslash, -⟩ := readable_labVariables entry.1 h.mem
  unfold entryLine
  simp only [List.mem_append, List.mem_cons, not_or]
  exact ⟨⟨hnewline, by decide, h.value.newline⟩, hbackslash, by decide, h.value.backslash⟩

/-- The names are printed once each. -/
theorem names_environmentEntries (env : Environment) :
    ((environmentEntries env).map Prod.fst).Nodup ∧
      ∀ name ∈ (environmentEntries env).map Prod.fst, name ∈ LAB_VARIABLES := by
  have hnames : (environmentEntries env).map Prod.fst = ["DNS_PORT", "DNS_FAULT_PORT",
      "DNS_UPSTREAMS", "DNS_ALLOWED_CLIENTS", "DNS_BIND_IPV4", "DNS_FAULT_BIND_IPV4",
      "DNS_BIND_IPV6", "CHUNK_DELAY_MS", "STALL_SECONDS", "IO_TIMEOUT_SECONDS", "MAX_SESSIONS",
      "REQUIRE_IPV6"] := rfl
  rw [hnames]
  exact ⟨by decide, by decide⟩

theorem lookup_of_mem {entries : List (String × Octets)} (hnodup : (entries.map Prod.fst).Nodup)
    (hnames : ∀ name ∈ entries.map Prod.fst, name ∈ LAB_VARIABLES) {entry : String × Octets}
    (h : entry ∈ entries) :
    (entries.map fun e => (textOctets e.1, e.2)).lookup (textOctets entry.1) = some entry.2 := by
  induction entries with
  | nil => cases h
  | cons e entries ih =>
    obtain ⟨hfirst, hrest⟩ := List.nodup_cons.mp hnodup
    obtain ⟨hname, hnames⟩ := List.forall_mem_cons.mp hnames
    rw [List.map_cons]
    rcases List.mem_cons.mp h with rfl | h
    · exact List.lookup_cons_self
    · have hmem : entry.1 ∈ entries.map Prod.fst := List.mem_map_of_mem h
      have hne : (textOctets entry.1 == textOctets e.1) = false := by
        refine beq_false_of_ne fun heq => hfirst ?_
        rwa [← textOctets_injOn_labVariables _ (hnames _ hmem) _ hname heq]
      rw [List.lookup_cons, hne]
      exact ih hrest hnames h

/-! ### Round trip -/

theorem expand_again {env env' : Environment} {name : String} {default : Octets}
    (h : env' (textOctets name) = some (expand env name default)) :
    expand env' name default = expand env name default := by
  rw [expand, h]
  dsimp only
  split_ifs with hnil
  · -- an empty value is an empty default
    unfold expand at hnil ⊢
    cases hvalue : env (textOctets name) with
    | none => rfl
    | some value =>
      rw [hvalue] at hnil
      dsimp only at hnil ⊢
      split_ifs at hnil ⊢ with hempty
      · rfl
      · exact absurd hnil hempty
  · rfl

section

variable {echo : Octets → Octets} {env env' : Environment}

/-- The values that the environment prints. -/
theorem readableEntry (henv : ∀ name ∈ LAB_VARIABLES, ∀ value ∈ env (textOctets name), Printable value) :
    (∀ entry ∈ environmentEntries env, ReadableEntry entry) ∧
      substitution (effectiveDnsBindIpv4 env ++ [10]) = effectiveDnsBindIpv4 env ∧
      substitution (effectiveDnsFaultBindIpv4 env ++ [10]) = effectiveDnsFaultBindIpv4 env := by
  have hexpand : ∀ name ∈ LAB_VARIABLES, ∀ {default : Octets}, Printable default →
      Printable (expand env name default) := fun name hname _ hdefault =>
    printable_expand (henv name hname) hdefault
  have hbind : Printable (effectiveDnsBindIpv4 env) :=
    hexpand _ (by decide) ⟨by decide, by decide⟩
  have hfault : Printable (effectiveDnsFaultBindIpv4 env) := hexpand _ (by decide) hbind
  have hbind' := substitution_of_not_mem hbind.newline
  have hfault' := substitution_of_not_mem hfault.newline
  refine ⟨fun entry hentry => ⟨?_, ?_⟩, hbind', hfault'⟩
  · exact (names_environmentEntries env).2 _ (List.mem_map_of_mem hentry)
  · simp only [environmentEntries, hbind', hfault', List.mem_cons, List.not_mem_nil, or_false]
      at hentry
    rcases hentry with rfl | rfl | rfl | rfl | rfl | rfl | rfl | rfl | rfl | rfl | rfl | rfl
    case inr.inr.inr.inr.inl => exact hbind
    case inr.inr.inr.inr.inr.inl => exact hfault
    all_goals exact hexpand _ (by decide) ⟨by decide, by decide⟩

/-- The printed environment is read as its entries. -/
theorem filterMap_lineAssignment (hecho : ∀ text, 92 ∉ text → echo text = text ++ [10])
    (hreadable : ∀ entry ∈ environmentEntries env, ReadableEntry entry) :
    (Shell.lines 10 (printEnvironment echo env)).filterMap lineAssignment
      = (environmentEntries env).map fun e => (textOctets e.1, e.2) := by
  have htext : printEnvironment echo env
      = Shell.unlines 10 ((environmentEntries env).map entryLine) := by
    rw [printEnvironment, Shell.unlines, List.flatMap_map]
    refine List.flatMap_congr fun entry hentry => ?_
    exact hecho _ (not_mem_entryLine (hreadable entry hentry)).2
  rw [htext, Shell.lines_unlines]
  · rw [List.filterMap_map, ← List.filterMap_eq_map]
    exact List.filterMap_congr fun entry hentry => lineAssignment_entryLine (hreadable entry hentry)
  · intro line hline
    obtain ⟨entry, hentry, rfl⟩ := List.mem_map.mp hline
    exact (not_mem_entryLine (hreadable entry hentry)).1

/-- An environment in which every entry is set to what is printed for it prints the same. -/
theorem environmentEntries_of_set
    (henv : ∀ name ∈ LAB_VARIABLES, ∀ value ∈ env (textOctets name), Printable value)
    (hset : ∀ entry ∈ environmentEntries env, env' (textOctets entry.1) = some entry.2) :
    effectiveDnsFaultBindIpv4 env' = effectiveDnsFaultBindIpv4 env ∧
      environmentEntries env' = environmentEntries env := by
  obtain ⟨-, hbind, hfault⟩ := readableEntry henv
  have hagain : ∀ {name : String} {default : Octets},
      (name, expand env name default) ∈ environmentEntries env →
        expand env' name default = expand env name default := fun h => expand_again (hset _ h)
  have hbindMem : ("DNS_BIND_IPV4", effectiveDnsBindIpv4 env) ∈ environmentEntries env := by
    simp [environmentEntries, hbind]
  have hfaultMem : ("DNS_FAULT_BIND_IPV4", effectiveDnsFaultBindIpv4 env) ∈ environmentEntries env := by
    simp [environmentEntries, hfault]
  have hbind' : effectiveDnsBindIpv4 env' = effectiveDnsBindIpv4 env := hagain hbindMem
  have hfault' : effectiveDnsFaultBindIpv4 env' = effectiveDnsFaultBindIpv4 env := by
    rw [effectiveDnsFaultBindIpv4, hbind']
    exact hagain hfaultMem
  refine ⟨hfault', ?_⟩
  rw [environmentEntries, hbind', hfault', hagain, hagain, hagain, hagain, hagain, hagain, hagain,
    hagain, hagain, hagain, environmentEntries]
  all_goals simp [environmentEntries]

/-- The check reads two entries and the address of the fault proxy. -/
theorem validateIpv4Publications_congr
    (hfault : effectiveDnsFaultBindIpv4 env' = effectiveDnsFaultBindIpv4 env)
    (hentries : environmentEntries env' = environmentEntries env) :
    validateIpv4Publications env' = validateIpv4Publications env := by
  have hports := congrArg (fun entries => entries.map Prod.snd) hentries
  simp only [environmentEntries, List.map_cons, List.cons.injEq] at hports
  rw [validateIpv4Publications, hfault, hports.1, hports.2.1, validateIpv4Publications]

/-- **Round trip**: the printed environment is an environment file that gives it again, and that passes
the check of the publications or fails it as the environment does. -/
theorem printEnvironment_load (hecho : ∀ text, 92 ∉ text → echo text = text ++ [10])
    (henv : ∀ name ∈ LAB_VARIABLES, ∀ value ∈ env (textOctets name), Printable value)
    (hunset : ∀ name ∈ LAB_VARIABLES, env' (textOctets name) = none) :
    let loaded := loadLabEnvironment (some (printEnvironment echo env)) env'
    printEnvironment echo loaded = printEnvironment echo env ∧
      validateIpv4Publications loaded = validateIpv4Publications env := by
  intro loaded
  obtain ⟨hreadable, -, -⟩ := readableEntry henv
  obtain ⟨hnodup, hnames⟩ := names_environmentEntries env
  have hset : ∀ entry ∈ environmentEntries env, loaded (textOctets entry.1) = some entry.2 := by
    intro entry hentry
    have hname := hnames _ (List.mem_map_of_mem hentry)
    show loadLabEnvironment _ _ _ = _
    rw [loadLabEnvironment_apply, if_pos ⟨List.mem_map_of_mem hname, hunset _ hname⟩,
      filterMap_lineAssignment hecho hreadable, lookup_of_mem hnodup hnames hentry]
  obtain ⟨hfault, hentries⟩ := environmentEntries_of_set henv hset
  refine ⟨?_, validateIpv4Publications_congr hfault hentries⟩
  rw [printEnvironment, printEnvironment, hentries]

end

/-- The environment file of a lab with ports of its own. -/
theorem printEnvironment_load_ports :
    let env : Environment := fun name =>
      [(textOctets "DNS_PORT", textOctets "15300"), (textOctets "DNS_FAULT_BIND_IPV4", []),
        (textOctets "DNS_BIND_IPV4", textOctets "192.0.2.10")].lookup name
    let loaded := loadLabEnvironment (some (printEnvironment (· ++ [10]) env)) fun _ => none
    printEnvironment (· ++ [10]) loaded = printEnvironment (· ++ [10]) env ∧
      validateIpv4Publications loaded = validateIpv4Publications env := by
  refine printEnvironment_load (fun _ _ => rfl) ?_ fun _ _ => rfl
  have hvalues : ∀ name ∈ LAB_VARIABLES, ∀ value ∈ [(textOctets "DNS_PORT", textOctets "15300"),
      (textOctets "DNS_FAULT_BIND_IPV4", []), (textOctets "DNS_BIND_IPV4", textOctets "192.0.2.10")].lookup
        (textOctets name), 10 ∉ value ∧ 92 ∉ value := by decide +kernel
  exact fun name hname value hvalue =>
    ⟨(hvalues name hname value hvalue).1, (hvalues name hname value hvalue).2⟩

end DnsFixtures

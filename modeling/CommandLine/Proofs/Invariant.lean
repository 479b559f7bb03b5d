import CommandLine.Proofs.Selection

/-!
# The representation invariant

What holds of a registry in every state that operations lead to, whether they succeed or fail.

1. The table of names and the list of subcommands agree: the number of a name is the place of the
   subcommand that has it, both have the same length, and no two subcommands share a name.
2. The limits are kept: of flags and positional values in each scope, and of subcommands.
3. Every flag has a name, and its value is of the kind and the shape of its default.
4. Positional values are kept as texts: naming the argument moves them into a list of texts, and
   only such a list takes another one.

Declarations keep the invariant step by step (`InLimits.change`). Of a parse it is enough to know
that each scope is left as some items leave it, for which it had room (`ReadsInto`).
-/

namespace CommandLine

/-- A flag has a name, and its value is of the kind and the shape of its default. -/
structure Flag.WellFormed (f : Flag) : Prop where
  isNamed : f.long.isSome = true ∨ f.short.isSome = true
  kind_eq : f.value.kind = f.default.kind
  isList_eq : f.value.isList = f.default.isList

/-- A scope keeps to the limits, its flags are well formed, and its positional values are kept as
texts. -/
structure Scope.WellFormed (config : Config) (s : Scope) : Prop where
  flags : ∀ f ∈ s.flags, f.WellFormed
  length_flags_le : s.flags.length ≤ config.maxFlags
  length_values_le : s.positional.values.length ≤ config.maxPositionals
  kind_list_eq : s.positional.list.kind = .string

/-- A registry is consistent and keeps to the limits of a configuration. -/
structure Registry.WellFormed (config : Config) (r : Registry) : Prop where
  config_eq : r.config = config
  slot?_eq_some_iff : ∀ name slot, r.slot? name = some slot ↔
    ∃ sub, r.subcommands[slot]? = some sub ∧ sub.name = name
  size_names_eq : r.names.size = r.subcommands.length
  nodup_names : (r.subcommands.map (·.name)).Nodup
  length_subcommands_le : r.subcommands.length ≤ config.maxSubcommands
  scope : ∀ id s, r.scope id = .ok s → s.WellFormed config

/-! ## Flags and scopes -/

theorem Flag.IsNew.wellFormed {f : Flag} (hnew : f.IsNew) (hnamed : f.isNamed = true) :
    f.WellFormed where
  isNamed := Bool.or_eq_true_iff.mp hnamed
  kind_eq := by rw [hnew.value_eq]
  isList_eq := by rw [hnew.value_eq]

/-- Whether a flag is well formed does not depend on the content of its value. -/
theorem Flag.WellFormed.congr {f f' : Flag} (hf : f'.cleared = f.cleared) (h : f.WellFormed) :
    f'.WellFormed := by
  have hdefault := Flag.default_eq_of_cleared_eq hf
  refine ⟨?_, ?_, ?_⟩
  · rw [Flag.long_eq_of_cleared_eq hf, Flag.short_eq_of_cleared_eq hf]
    exact h.isNamed
  · rw [hdefault, ← h.kind_eq]
    exact Flag.kind_eq_of_cleared_eq hf
  · rw [hdefault, ← h.isList_eq]
    exact Flag.isList_eq_of_cleared_eq hf

namespace Scope

theorem wellFormed_empty (config : Config) : ({} : Scope).WellFormed config where
  flags _ hf := absurd hf List.not_mem_nil
  length_flags_le := Nat.zero_le _
  length_values_le := Nat.zero_le _
  kind_list_eq := rfl

theorem WellFormed.addFlag {config : Config} {s : Scope} {flag : Flag} (h : s.WellFormed config)
    (hflag : flag.WellFormed) (hroom : s.flags.length < config.maxFlags) :
    ({ s with flags := s.flags ++ [flag] } : Scope).WellFormed config where
  flags f hf := by
    rcases List.mem_append.mp hf with hf | hf
    · exact h.flags f hf
    · rw [List.mem_singleton.mp hf]
      exact hflag
  length_flags_le := by
    show (s.flags ++ [flag]).length ≤ config.maxFlags
    rw [List.length_append, List.length_singleton]
    omega
  length_values_le := h.length_values_le
  kind_list_eq := h.kind_list_eq

theorem WellFormed.namePositional {config : Config} {s : Scope} (h : s.WellFormed config)
    (name description : String) : (s.namePositional name description).WellFormed config where
  flags := h.flags
  length_flags_le := h.length_flags_le
  length_values_le := by
    rw [values_namePositional]
    exact h.length_values_le
  kind_list_eq := by rw [positional_namePositional]

/-- Items for which there is room leave a scope well formed. -/
theorem WellFormed.afterAll {config : Config} {s : Scope} {items : List Item}
    (h : s.WellFormed config) (hroom : s.Room config.maxPositionals items) :
    (s.afterAll items).WellFormed config where
  flags f' hf' := by
    obtain ⟨index, hindex⟩ := List.getElem?_of_mem hf'
    obtain ⟨f, hf, hclear⟩ :=
      exists_flag_of_declarations_eq (s.declarations_afterAll items).symm hindex
    exact (h.flags f (List.mem_of_getElem? hf)).congr hclear.symm
  length_flags_le := by
    rw [length_flags_afterAll]
    exact h.length_flags_le
  length_values_le := by
    rw [values_afterAll, List.length_append]
    rcases hroom with hnone | ⟨_, hroom⟩
    · rw [hnone, List.length_nil]
      exact h.length_values_le
    · exact hroom
  kind_list_eq := kind_list_afterAll h.kind_list_eq items

end Scope

namespace Registry

/-! ## What a parse does to the scopes -/

/-- A registry with the limits of another, each of whose scopes has read some items for which it had
room. -/
structure ReadsInto (r r' : Registry) : Prop where
  config_eq : r'.config = r.config
  scope : ∀ id s', r'.scope id = .ok s' → ∃ s items, r.scope id = .ok s ∧
    s.Room r.config.maxPositionals items ∧ s' = s.afterAll items

theorem readsInto_of_scope_eq {r r' : Registry} (hconfig : r'.config = r.config)
    (hscope : ∀ id, r'.scope id = r.scope id) : ReadsInto r r' where
  config_eq := hconfig
  scope id s' hs' := ⟨s', [], (hscope id).symm.trans hs', .inl rfl, rfl⟩

theorem readsInto_feed (r : Registry) (id : ScopeId) (tokens : List String) :
    ReadsInto r (r.feed id tokens).1 := by
  rcases hscope : r.scope id with e | s
  · unfold feed
    rw [hscope]
    exact readsInto_of_scope_eq rfl fun _ => rfl
  · rw [feed_eq hscope]
    obtain ⟨items, hroom, hfeed⟩ := s.exists_feed_fst_eq r.config.maxPositionals tokens
    refine ⟨config_setScope _ _ _, fun id' s' hs' => ?_⟩
    rw [scope_setScope hscope, hfeed] at hs'
    split at hs'
    · rename_i hid
      subst hid
      exact ⟨s, items, hscope, hroom, (Except.ok.inj hs').symm⟩
    · exact ⟨s', [], hs', .inl rfl, rfl⟩

theorem readsInto_run (r : Registry) (args : List String) : ReadsInto r (r.run args).1 := by
  unfold run
  split
  · exact readsInto_of_scope_eq rfl fun _ => rfl
  · rename_i q id tokens hselect
    have hfeed := q.readsInto_feed id tokens
    rcases select_eq_ok hselect with ⟨rfl, _, _⟩ | ⟨first, slot, _, _, _, _, _, rfl, _⟩
    · exact hfeed
    · refine ⟨hfeed.config_eq, fun id' s' hs' => ?_⟩
      obtain ⟨s, items, hs, hroom, heq⟩ := hfeed.scope id' s' hs'
      rw [scope_activate] at hs
      exact ⟨s, items, hs, hroom, heq⟩

theorem readsInto_parse (r : Registry) (args : List String) : ReadsInto r (r.parse args).1 := by
  unfold parse
  split
  · exact readsInto_of_scope_eq rfl fun _ => rfl
  · simp only
    split
    · exact readsInto_of_scope_eq rfl fun _ => rfl
    · have hrun := readsInto_run { r with parsed := true } args
      split
      · rename_i r' heq
        rw [heq] at hrun
        exact ⟨hrun.config_eq, hrun.scope⟩
      · rename_i r' e heq
        rw [heq] at hrun
        exact ⟨hrun.config_eq, hrun.scope⟩

/-! ## The limits -/

/-- The subcommands and the scopes of a registry keep to its limits. -/
structure InLimits (r : Registry) : Prop where
  length_le : r.subcommands.length ≤ r.config.maxSubcommands
  scope : ∀ id s, r.scope id = .ok s → s.WellFormed r.config

theorem length_subcommands_setScope (r : Registry) (t : Scope) (id : ScopeId) :
    (r.setScope t id).subcommands.length = r.subcommands.length := by
  have h := congrArg List.length (map_name_setScope r t id)
  rwa [List.length_map, List.length_map] at h

theorem InLimits.setScope {r : Registry} {id : ScopeId} {s t : Scope} (h : InLimits r)
    (hscope : r.scope id = .ok s) (ht : t.WellFormed r.config) : InLimits (r.setScope t id) where
  length_le := by
    rw [length_subcommands_setScope, config_setScope]
    exact h.length_le
  scope := by
    rw [config_setScope]
    exact forall_scope_setScope h.scope hscope ht

theorem InLimits.change {r r' : Registry} (h : InLimits r) (hchange : Change r r') :
    InLimits r' := by
  cases hchange with
  | errors slot => exact ⟨h.length_le, h.scope⟩
  | flag hscope hroom hnamed hnew =>
    exact h.setScope hscope ((h.scope _ _ hscope).addFlag (hnew.wellFormed hnamed) hroom)
  | help handle => exact ⟨h.length_le, h.scope⟩
  | outOfTurn hinsert hslot => exact ⟨h.length_le, h.scope⟩
  | subcommand hroom hinsert =>
    refine ⟨?_, fun id s hs => ?_⟩
    · simp only [List.length_append, List.length_singleton]
      omega
    · rcases scope_append_subcommand hs with hs | rfl
      · exact h.scope id s hs
      · exact Scope.wellFormed_empty _
  | positional name description hscope =>
    exact h.setScope hscope ((h.scope _ _ hscope).namePositional name description)
  | parse args hparsed =>
    have hreads := r.readsInto_parse args
    refine ⟨?_, fun id s' hs' => ?_⟩
    · rw [(sameNames_parse args hparsed).length_subcommands_eq, hreads.config_eq]
      exact h.length_le
    · obtain ⟨s, items, hs, hroom, rfl⟩ := hreads.scope id s' hs'
      rw [hreads.config_eq]
      exact (h.scope id s hs).afterAll hroom

theorem Reachable.inLimits {r : Registry} (h : Reachable r) : InLimits r := by
  refine h.induction ?_ fun _ _ hr hchange => hr.change hchange
  intro id name description config
  refine ⟨Nat.zero_le _, fun id' s hs => ?_⟩
  rw [eq_empty_of_scope_blank hs]
  exact Scope.wellFormed_empty config

/-- The positional values of every scope are kept as texts. -/
def HoldsTexts (r : Registry) : Prop :=
  ∀ id s, r.scope id = .ok s → s.positional.list.kind = .string

theorem Reachable.holdsTexts {r : Registry} (h : Reachable r) : HoldsTexts r :=
  fun id s hs => (h.inLimits.scope id s hs).kind_list_eq

/-! ## The configuration -/

theorem Change.config_eq {r r' : Registry} (h : Change r r') : r'.config = r.config := by
  cases h with
  | errors slot => rfl
  | flag hscope hroom hnamed hnew => exact config_setScope _ _ _
  | help handle => rfl
  | outOfTurn hinsert hslot => rfl
  | subcommand hroom hinsert => rfl
  | positional name description hscope => exact config_setScope _ _ _
  | parse args hparsed => exact (r.readsInto_parse args).config_eq

theorem config_eq_of_changes {r r' : Registry} (h : Changes r r') : r'.config = r.config := by
  induction h with
  | refl => rfl
  | tail _ hchange ih => exact hchange.config_eq.trans ih

theorem config_start (id : Nat) (name description : String) (config : Config) :
    (start id name description config).config = config :=
  config_eq_of_changes (changes_of_edits (declareHelp_edits _ none))

theorem config_performAll (r : Registry) (operations : List Operation) :
    (r.performAll operations).config = r.config := by
  induction operations generalizing r with
  | nil => rfl
  | cons operation operations ih =>
    calc ((r.perform operation).performAll operations).config = (r.perform operation).config := ih _
      _ = r.config := config_eq_of_changes (perform_changes r operation)

/-! ## Every state -/

/-- **Representation invariant.** Whatever operations are performed on a new registry, it is well
formed under its configuration. -/
theorem performAll_wellFormed (id : Nat) (name description : String) (config : Config)
    (operations : List Operation) :
    ((start id name description config).performAll operations).WellFormed config := by
  have hr := (Reachable.start id name description config).performAll operations
  have hconfig : ((start id name description config).performAll operations).config = config :=
    (config_performAll _ operations).trans (config_start id name description config)
  have hnames := hr.names_agree
  have hlimits := hr.inLimits
  refine ⟨hconfig, fun _ _ => hnames.slot?_eq_some_iff, ?_, hnames.nodup, ?_, fun id' s hs => ?_⟩
  · rw [hnames.size_eq, List.length_map]
  · have hle := hlimits.length_le
    rwa [hconfig] at hle
  · have hscope := hlimits.scope id' s hs
    rwa [hconfig] at hscope

end Registry

end CommandLine

import CommandLine.Proofs.Frozen

/-!
# Requests for help

When a command line asks for help.

1. Every scope starts with its help flag, and the help flags that a registry remembers are these
   (`Reachable.helpFirst`), as long as flags are allowed at all. So no flag that is declared later
   takes the name `--help` away, whatever its own names are (`Scope.StartsWithHelp.resolves_iff`).
2. `Processes` says which items of a line a parse reads, up to the end or to the first failure. The
   parse leaves in the selected scope what they leave (`scope_parse_of_selects`).
3. So help is requested exactly if one of these items is headed by `--help`
   (`isHelpRequested_parse_iff`). A token `--help` that a flag takes as its value heads no item.
-/

namespace CommandLine

/-- Items name a flag if and only if they give it something. -/
theorem Item.occurrences_ne_nil_iff {index : Nat} {items : List Item} :
    occurrences index items ≠ [] ↔ ∃ token values, .flag index token values ∈ items := by
  constructor
  · intro hne
    obtain ⟨values, hvalues⟩ := List.exists_mem_of_ne_nil _ hne
    obtain ⟨token, hitem⟩ := mem_occurrences.mp hvalues
    exact ⟨token, values, hitem⟩
  · rintro ⟨token, values, hitem⟩ hnil
    have hvalues := mem_occurrences.mpr ⟨token, hitem⟩
    rw [hnil] at hvalues
    exact absurd hvalues List.not_mem_nil

theorem Item.line_eq_nil_iff {items : List Item} : line items = [] ↔ items = [] := by
  cases items with
  | nil => simp
  | cons item items =>
    obtain ⟨token, more, htokens⟩ := item.exists_tokens_eq_cons
    simp [htokens]

/-- A switch that is off is on once it was given. -/
theorem Value.foldl_given_switch (given : List (List String)) :
    given.foldl Value.given (.scalar .bool false) = .scalar .bool (!given.isEmpty) := by
  have hon : ∀ given : List (List String),
      given.foldl Value.given (.scalar .bool true) = .scalar .bool true := by
    intro given
    induction given with
    | nil => rfl
    | cons values given ih => exact ih
  cases given with
  | nil => rfl
  | cons values given => exact hon given

/-! ## Scopes that start with their help flag -/

namespace Scope

open Registry (helpFlag)

/-- The first flag of a scope is its help flag. -/
def StartsWithHelp (s : Scope) : Prop := s.declarations[0]? = some helpFlag

theorem StartsWithHelp.extends {s s' : Scope} (h : s.StartsWithHelp) (hextends : s.Extends s') :
    s'.StartsWithHelp := by
  obtain ⟨more, hmore⟩ := hextends
  have hlt := (List.getElem?_eq_some_iff.mp h).1
  unfold StartsWithHelp
  rw [← hmore, List.getElem?_append_left hlt]
  exact h

theorem StartsWithHelp.exists_flag {s : Scope} (h : s.StartsWithHelp) :
    ∃ f, s.flags[0]? = some f ∧ f.cleared = helpFlag := by
  unfold StartsWithHelp declarations at h
  rw [List.getElem?_map] at h
  exact Option.map_eq_some_iff.mp h

/-- A scope that starts with its help flag has it for `--help`, and has no other name for it. -/
theorem StartsWithHelp.resolves_iff {s : Scope} (h : s.StartsWithHelp) {token : String} :
    s.Resolves token 0 ↔ token = "--help" := by
  obtain ⟨f, hf, hcleared⟩ := h.exists_flag
  have hlong : f.long = some "help" := congrArg Flag.long hcleared
  have hshort : f.short = none := congrArg Flag.short hcleared
  constructor
  · intro hname
    cases hname with
    | @long name _ hname hfirst =>
      obtain ⟨⟨g, hg, hgname⟩, _⟩ := hfirst
      obtain rfl := Option.some.inj (hf.symm.trans hg)
      obtain rfl := Option.some.inj (hlong.symm.trans hgname)
      rfl
    | @short c _ hc hfirst =>
      obtain ⟨⟨g, hg, hgname⟩, _⟩ := hfirst
      obtain rfl := Option.some.inj (hf.symm.trans hg)
      cases hshort.symm.trans hgname
  · rintro rfl
    have hfirst : s.IsFirst (·.long = some "help") 0 :=
      ⟨⟨f, hf, hlong⟩, fun j hj => absurd hj (Nat.not_lt_zero j)⟩
    exact .long (by decide) hfirst

/-- The items of a cut that give something to the help flag are those headed by `--help`. -/
theorem StartsWithHelp.occurrences_ne_nil_iff {s : Scope} (h : s.StartsWithHelp)
    {items : List Item} {rest : List String} (hcut : s.Cut items rest) :
    Item.occurrences 0 items ≠ [] ↔ ∃ item ∈ items, item.tokens.head? = some "--help" := by
  rw [Item.occurrences_ne_nil_iff]
  constructor
  · rintro ⟨token, values, hitem⟩
    obtain ⟨_, hfits⟩ := hcut.fits_of_mem hitem
    cases hfits with
    | flag hname _ _ => exact ⟨_, hitem, congrArg some (h.resolves_iff.mp hname)⟩
  · rintro ⟨item, hitem, hhead⟩
    obtain ⟨_, hfits⟩ := hcut.fits_of_mem hitem
    cases hfits with
    | separator => exact absurd (Option.some.inj hhead) (by decide)
    | positional htext =>
      obtain rfl := Option.some.inj hhead
      exact absurd htext (by decide)
    | @flag index token values f hname _ _ =>
      obtain rfl := Option.some.inj hhead
      obtain rfl := hname.unique (h.resolves_iff.mpr rfl)
      exact ⟨_, values, hitem⟩

/-- Whether the help flag of a scope was given. -/
def AsksForHelp (s : Scope) : Prop := ∃ f, s.flags[0]? = some f ∧ f.value = .scalar .bool true

theorem StartsWithHelp.value_eq_of_isFresh {s : Scope} (h : s.StartsWithHelp) (hfresh : s.IsFresh)
    {f : Flag} (hf : s.flags[0]? = some f) : f.value = .scalar .bool false := by
  obtain ⟨g, hg, hcleared⟩ := h.exists_flag
  obtain rfl := Option.some.inj (hg.symm.trans hf)
  have hdefault : g.default = .scalar .bool false := congrArg Flag.default hcleared
  exact (hfresh.isNew g (List.mem_of_getElem? hg)).value_eq.trans hdefault

theorem not_asksForHelp_of_isFresh {s : Scope} (h : s.StartsWithHelp) (hfresh : s.IsFresh) :
    ¬ s.AsksForHelp := by
  rintro ⟨f, hf, hvalue⟩
  cases hvalue.symm.trans (h.value_eq_of_isFresh hfresh hf)

/-- The help flag of a new scope is given by items headed by `--help`, and by no others. -/
theorem asksForHelp_afterAll_iff {s : Scope} (h : s.StartsWithHelp) (hfresh : s.IsFresh)
    {items : List Item} {rest : List String} (hcut : s.Cut items rest) :
    (s.afterAll items).AsksForHelp ↔ ∃ item ∈ items, item.tokens.head? = some "--help" := by
  obtain ⟨f, hf, _⟩ := h.exists_flag
  rw [← h.occurrences_ne_nil_iff hcut]
  unfold AsksForHelp
  rw [getElem?_flags_afterAll, hf]
  simp only [Option.map_some, Option.some.injEq, exists_eq_left',
    h.value_eq_of_isFresh hfresh hf, Value.foldl_given_switch]
  cases Item.occurrences 0 items <;> simp

end Scope

namespace Registry

/-! ## Help flags over the life of a registry -/

/-- The help flags of a registry are the first flags of its scopes. -/
structure HelpFirst (r : Registry) : Prop where
  startsWithHelp : ∀ id s, r.scope id = .ok s → s.StartsWithHelp
  mem_helpFlags_iff : ∀ h : FlagHandle .bool, h ∈ r.helpFlags ↔
    h.registry = r.id ∧ h.index = 0 ∧ ∃ s, r.scope h.scope = .ok s

/-- Two registries with equally many subcommands and the same help flags. -/
structure SameScopes (r r' : Registry) : Prop where
  length_eq : r'.subcommands.length = r.subcommands.length
  helpFlags_eq : r'.helpFlags = r.helpFlags

theorem exists_scope_iff {r : Registry} {id : ScopeId} :
    (∃ s, r.scope id = .ok s) ↔ ∀ slot, id = .subcommand slot → slot < r.subcommands.length := by
  cases id with
  | global => exact ⟨fun _ slot h => (nomatch h), fun _ => ⟨r.global, rfl⟩⟩
  | subcommand slot =>
    constructor
    · rintro ⟨s, hs⟩ slot' ⟨⟩
      obtain ⟨sub, hsub, _⟩ := scope_subcommand_eq_ok_iff.mp hs
      exact (List.getElem?_eq_some_iff.mp hsub).1
    · intro h
      have hsub := List.getElem?_eq_getElem (h slot rfl)
      exact ⟨_, scope_subcommand_eq_ok_iff.mpr ⟨_, hsub, rfl⟩⟩

theorem HelpFirst.step {r r' : Registry} (h : r.HelpFirst) (hextends : r.Extends r')
    (hsame : r.SameScopes r') : r'.HelpFirst := by
  have hexists : ∀ id, (∃ s, r'.scope id = .ok s) ↔ ∃ s, r.scope id = .ok s := by
    intro id
    rw [exists_scope_iff, exists_scope_iff, hsame.length_eq]
  refine ⟨fun id s' hs' => ?_, fun handle => ?_⟩
  · obtain ⟨s, hs⟩ := (hexists id).mp ⟨s', hs'⟩
    obtain ⟨t, ht, hst⟩ := hextends.scope id s hs
    obtain rfl := Except.ok.inj (hs'.symm.trans ht)
    exact (h.startsWithHelp id s hs).extends hst
  · rw [hsame.helpFlags_eq, h.mem_helpFlags_iff, hextends.id_eq, hexists]

theorem EndsInScope.sameScopes {α : Type} {r : Registry} {outcome : Registry × Except Error α}
    (h : r.EndsInScope outcome) : r.SameScopes outcome.1 := by
  refine ⟨?_, h.helpFlags_eq⟩
  cases h with
  | refused e => rfl
  | changed t id a => exact length_subcommands_setScope r t id

/-- The help flag of an empty scope becomes its first flag, and is remembered. -/
theorem HelpFirst.declareHelp {r : Registry} {scope? : Option String} {id : ScopeId}
    (hid : r.scopeOf scope? = .ok id) (hs : r.scope id = .ok {}) (hmax : r.config.maxFlags ≠ 0)
    (hothers : ∀ id' s, id' ≠ id → r.scope id' = .ok s → s.StartsWithHelp)
    (hmem : ∀ h : FlagHandle .bool, h ∈ r.helpFlags ↔
      h.registry = r.id ∧ h.index = 0 ∧ h.scope ≠ id ∧ ∃ s, r.scope h.scope = .ok s) :
    (r.declareHelp scope?).HelpFirst := by
  rw [declareHelp_of_room hid hs (Nat.pos_of_ne_zero hmax)]
  have hscope := scope_setScope hs { flags := [helpFlag] }
  refine ⟨fun id' s' hs' => ?_, fun handle => ?_⟩
  · have hs'' := (hscope id').symm.trans hs'
    split at hs''
    · obtain rfl := Except.ok.inj hs''
      rfl
    · rename_i hne
      exact hothers id' s' hne hs''
  · have hexists : (∃ s, (r.setScope { flags := [helpFlag] } id).scope handle.scope = .ok s) ↔
        handle.scope = id ∨ handle.scope ≠ id ∧ ∃ s, r.scope handle.scope = .ok s := by
      rw [hscope]
      by_cases hne : handle.scope = id
      · simp [hne]
      · simp [hne]
    show handle ∈ r.helpFlags ++ [⟨r.id, id, 0⟩] ↔
      handle.registry = (r.setScope { flags := [helpFlag] } id).id ∧ handle.index = 0 ∧
        ∃ s, (r.setScope { flags := [helpFlag] } id).scope handle.scope = .ok s
    rw [List.mem_append, List.mem_singleton, hmem, hexists, id_setScope]
    obtain ⟨owner, scope, index⟩ := handle
    simp only [FlagHandle.mk.injEq]
    tauto

theorem helpFirst_start (id : Nat) (name description : String) {config : Config}
    (hmax : config.maxFlags ≠ 0) : (start id name description config).HelpFirst := by
  have hglobal : ({
      id := id
      name := nonEmpty? name
      description := nonEmpty? description
      config := config } : Registry).scopeOf none = .ok .global := rfl
  refine HelpFirst.declareHelp hglobal rfl hmax ?_ ?_
  · intro id' s hne hs
    cases id' with
    | global => exact absurd rfl hne
    | subcommand slot =>
      obtain ⟨sub, hsub, _⟩ := scope_subcommand_eq_ok_iff.mp hs
      cases hsub
  · intro handle
    refine iff_of_false List.not_mem_nil ?_
    rintro ⟨_, _, hne, s, hs⟩
    cases hscope : handle.scope with
    | global => exact hne hscope
    | subcommand slot =>
      rw [hscope] at hs
      obtain ⟨sub, hsub, _⟩ := scope_subcommand_eq_ok_iff.mp hs
      cases hsub

/-- Scopes other than that of a new subcommand are scopes that there were. -/
theorem scope_append_of_ne {r : Registry} {names : NameTable} {sub : Subcommand} {id : ScopeId}
    (hne : id ≠ .subcommand r.subcommands.length) :
    ({ r with names := names, subcommands := r.subcommands ++ [sub] } : Registry).scope id =
      r.scope id := by
  cases id with
  | global => rfl
  | subcommand slot =>
    have hslot : slot ≠ r.subcommands.length := fun h => hne (congrArg _ h)
    have hget : (r.subcommands ++ [sub])[slot]? = r.subcommands[slot]? := by
      rcases Nat.lt_or_gt_of_ne hslot with hlt | hgt
      · exact List.getElem?_append_left hlt
      · have hlength : (r.subcommands ++ [sub]).length ≤ slot := by
          rw [List.length_append, List.length_singleton]
          exact hgt
        rw [List.getElem?_eq_none hlength, List.getElem?_eq_none (Nat.le_of_lt hgt)]
    unfold scope
    simp only [hget]

theorem HelpFirst.declareSubcommand {r : Registry} (h : r.HelpFirst) (hr : r.Reachable)
    (hmax : r.config.maxFlags ≠ 0) (name description : String) :
    (r.declareSubcommand name description).1.HelpFirst := by
  have hextends := perform_extends hr (.declareSubcommand name description)
  have hrefused : ∀ e, r.declareSubcommand name description = r.declared (.error e) →
      (r.declareSubcommand name description).1.HelpFirst := by
    intro e heq
    refine h.step hextends ?_
    show r.SameScopes (r.declareSubcommand name description).1
    rw [heq]
    exact ⟨rfl, rfl⟩
  rcases r.declareSubcommand_cases name description with ⟨_, heq⟩ | ⟨hroom, ⟨_, heq⟩ |
    ⟨slot, names, hinsert, hslot, _⟩ | ⟨names, hinsert, heq⟩⟩
  · exact hrefused _ heq
  · exact hrefused _ heq
  · exact absurd (hr.names_agree.slot_eq_length hinsert) hslot
  · obtain ⟨hid, hs⟩ := scopeOf_append_subcommand hr.names_agree hroom hinsert
    rw [heq]
    refine HelpFirst.declareHelp hid hs hmax ?_ ?_
    · intro id' s hne hs'
      exact h.startsWithHelp id' s ((scope_append_of_ne hne).symm.trans hs')
    · intro handle
      refine (h.mem_helpFlags_iff handle).trans ?_
      constructor
      · rintro ⟨howner, hindex, s, hs'⟩
        have hne : handle.scope ≠ .subcommand r.subcommands.length := fun heq =>
          absurd (exists_scope_iff.mp ⟨s, hs'⟩ _ heq) (Nat.lt_irrefl _)
        exact ⟨howner, hindex, hne, s, (scope_append_of_ne hne).trans hs'⟩
      · rintro ⟨howner, hindex, hne, s, hs'⟩
        exact ⟨howner, hindex, s, (scope_append_of_ne hne).symm.trans hs'⟩

theorem HelpFirst.perform {r : Registry} (h : r.HelpFirst) (hr : r.Reachable)
    (hmax : r.config.maxFlags ≠ 0) (operation : Operation) : (r.perform operation).HelpFirst := by
  have hextends := perform_extends hr operation
  cases operation with
  | declareFlag long short k default description scope? =>
    exact h.step hextends (endsInScope_declared_addFlag r _ scope? _).sameScopes
  | declareListFlag long short k description scope? =>
    exact h.step hextends (endsInScope_declared_addFlag r _ scope? _).sameScopes
  | declareSubcommand name description => exact h.declareSubcommand hr hmax name description
  | declarePositional name description scope? =>
    exact h.step hextends (r.endsInScope_declarePositional name description scope?).sameScopes
  | parse args =>
    have hsame := sameDeclared_parse hr.names_agree args
    have hlength := congrArg List.length hsame.subcommands_eq
    rw [List.length_map, List.length_map] at hlength
    exact h.step hextends ⟨hlength, hsame.helpFlags_eq⟩
  | lastError => exact h.step hextends ⟨rfl, rfl⟩
  | clearError => exact h.step hextends ⟨rfl, rfl⟩

/-- Whatever a host declares, the help flags of its registry are the first flags of the scopes. -/
theorem Reachable.helpFirst {r : Registry} (hr : r.Reachable) (hmax : r.config.maxFlags ≠ 0) :
    r.HelpFirst := by
  induction hr with
  | start id name description config =>
    rw [config_start] at hmax
    exact helpFirst_start id name description hmax
  | @perform r hr operation ih =>
    rw [config_eq_of_changes (perform_changes r operation)] at hmax
    exact (ih hmax).perform hr hmax operation

theorem HelpFirst.isHelpRequested_iff {r : Registry} (h : r.HelpFirst) :
    r.isHelpRequested = true ↔ ∃ id s, r.scope id = .ok s ∧ s.AsksForHelp := by
  have hread : ∀ {id : ScopeId} {s : Scope} {f : Flag}, r.scope id = .ok s →
      s.flags[0]? = some f →
      (r.get (⟨r.id, id, 0⟩ : FlagHandle .bool) = .ok true ↔ f.value = .scalar .bool true) := by
    intro id s f hs hf
    obtain ⟨g, hg, hcleared⟩ := (h.startsWithHelp id s hs).exists_flag
    obtain rfl := Option.some.inj (hg.symm.trans hf)
    have hkind : g.value.cleared = .scalar .bool false := congrArg Flag.value hcleared
    rw [get_of_flagAt (flagAt_eq_ok rfl hs hf)]
    rcases hvalue : g.value with ⟨k, x⟩ | l
    · rw [hvalue] at hkind
      obtain rfl : k = .bool := congrArg Value.kind hkind
      unfold scalarOf
      rw [Value.scalar?_scalar]
      simp
    · rw [hvalue] at hkind
      cases hkind
  rw [Registry.isHelpRequested_iff]
  constructor
  · rintro ⟨handle, hmem, hget⟩
    obtain ⟨howner, hindex, s, hs⟩ := (h.mem_helpFlags_iff handle).mp hmem
    obtain ⟨f, hf, _⟩ := (h.startsWithHelp _ s hs).exists_flag
    obtain ⟨owner, id, index⟩ := handle
    obtain rfl : owner = r.id := howner
    obtain rfl : index = 0 := hindex
    exact ⟨id, s, hs, f, hf, (hread hs hf).mp hget⟩
  · rintro ⟨id, s, hs, f, hf, hvalue⟩
    exact ⟨⟨r.id, id, 0⟩, (h.mem_helpFlags_iff _).mpr ⟨rfl, rfl, s, hs⟩, (hread hs hf).mpr hvalue⟩

/-! ## The items that a parse reads -/

/-- The items of a command line that are read, up to the end of the line or to the first token that
is refused. If the line selects no scope, nothing is read. -/
inductive Processes (r : Registry) (args : List String) : List Item → Prop
  | nothing (hnone : ∀ id tokens, ¬ r.Selects args id tokens) : Processes r args []
  | items {id : ScopeId} {s : Scope} {items : List Item} {rest : List String}
      (hselects : r.Selects args id (Item.line items ++ rest)) (hscope : r.scope id = .ok s)
      (hcut : s.Cut items rest) (hroom : s.Room r.config.maxPositionals items)
      (hend : ∀ token more, rest = token :: more →
        ∃ e, (s.afterAll items).Refuses r.config.maxPositionals token more e) :
      Processes r args items

theorem exists_processes {r : Registry} (hnames : NamesAgree r) (htexts : HoldsTexts r)
    (args : List String) : ∃ items, r.Processes args items := by
  rcases select_spec hnames args with ⟨id, tokens, hselects⟩ | ⟨first, rest, _, _, _, _, herr⟩
  · obtain ⟨s, hscope⟩ := hselects.exists_scope
    obtain ⟨items, rest, rfl, hcut, hroom, hend⟩ := s.feed_spec r.config.maxPositionals tokens
    refine ⟨items, .items hselects hscope hcut hroom fun token more hrest => ?_⟩
    rcases hend with ⟨hnil, _⟩ | ⟨token', more', e, hcons, hfails, _⟩
    · cases hrest.symm.trans hnil
    · obtain ⟨rfl, rfl⟩ := List.cons.inj (hrest.symm.trans hcons)
      exact ⟨e, hfails.refuses (Scope.kind_list_afterAll (htexts id s hscope) items)⟩
  · refine ⟨[], .nothing fun id tokens hselects => ?_⟩
    cases herr.symm.trans (hselects.select_eq hnames)

/-- What is read of a line is what is read of the cut before its end or its first failure. -/
theorem feed_fst_eq_afterAll {s : Scope} {limit : Nat} {items : List Item} {rest : List String}
    (hcut : s.Cut items rest) (hroom : s.Room limit items)
    (hend : ∀ token more, rest = token :: more →
      ∃ e, (s.afterAll items).Refuses limit token more e) :
    (s.feed limit (Item.line items ++ rest)).1 = s.afterAll items := by
  rw [s.feed_of_cut hcut hroom]
  cases rest with
  | nil => rw [Scope.feed_nil]
  | cons token more =>
    obtain ⟨e, hrefuses⟩ := hend token more rfl
    rw [Scope.feed, Scope.step_of_refuses hrefuses]

/-- A parse leaves in the selected scope what the items leave that it reads, and the other scopes as
they are. An empty line that is refused has no items. -/
theorem scope_parse_of_selects {r : Registry} (hnames : NamesAgree r) (hparsed : r.parsed = false)
    {args : List String} {id : ScopeId} {s : Scope} {items : List Item} {rest : List String}
    (hselects : r.Selects args id (Item.line items ++ rest)) (hscope : r.scope id = .ok s)
    (hcut : s.Cut items rest) (hroom : s.Room r.config.maxPositionals items)
    (hend : ∀ token more, rest = token :: more →
      ∃ e, (s.afterAll items).Refuses r.config.maxPositionals token more e) (id' : ScopeId) :
    (r.parse args).1.scope id' = if id' = id then .ok (s.afterAll items) else r.scope id' := by
  cases hargs : args.isEmpty && !r.config.allowEmptyArguments with
  | true =>
    have hnil : args = [] := by
      rw [Bool.and_eq_true, List.isEmpty_iff] at hargs
      exact hargs.1
    subst hnil
    have hglobal : r.Selects [] .global [] := .inl ⟨rfl, rfl, .inl rfl⟩
    obtain ⟨rfl, hline⟩ := hselects.unique hnames hglobal
    obtain rfl := Item.line_eq_nil_iff.mp (List.append_eq_nil_iff.mp hline).1
    have hparse : (r.parse []).1.scope id' = r.scope id' := by
      unfold parse
      simp only [hparsed, Bool.false_eq_true, if_false, hargs, if_true]
      rfl
    rw [hparse]
    split
    · rename_i hid
      rw [hid, hscope]
      rfl
    · rfl
  | false =>
    obtain ⟨errors, hparse⟩ := parse_fst_eq_run hparsed hargs
    have hrun := run_eq (r := { r with parsed := true }) hnames hselects hscope
    rw [hparse, hrun]
    show (({ r with parsed := true } : Registry).selected id |>.setScope
      (s.feed r.config.maxPositionals (Item.line items ++ rest)).1 id).scope id' = _
    rw [feed_fst_eq_afterAll hcut hroom hend, scope_setScope, scope_selected]
    · rfl
    · exact (scope_selected _ id id).trans hscope

/-! ## Help -/

/-- **Requests for help.** In a registry that allows flags, no help is requested before a parse.
After the first parse, whether it succeeds or fails, help is requested exactly if one of the items
that it has read is headed by `--help`. -/
theorem isHelpRequested_parse_iff {r : Registry} (hr : r.Reachable) (hmax : r.config.maxFlags ≠ 0)
    (hparsed : r.parsed = false) (args : List String) :
    r.isHelpRequested = false ∧ (∃ items, r.Processes args items) ∧
      ∀ items, r.Processes args items →
        ((r.parse args).1.isHelpRequested = true ↔
          ∃ item ∈ items, item.tokens.head? = some "--help") := by
  have hnames := hr.names_agree
  have hhelp := hr.helpFirst hmax
  have hhelp' : (r.parse args).1.HelpFirst := hhelp.perform hr hmax (.parse args)
  have hfresh := hr.isFresh hparsed
  have hsilent : ∀ id s, r.scope id = .ok s → ¬ s.AsksForHelp := fun id s hs =>
    Scope.not_asksForHelp_of_isFresh (hhelp.startsWithHelp id s hs) (hfresh id s hs)
  refine ⟨?_, exists_processes hnames hr.holdsTexts args, fun items hitems => ?_⟩
  · rw [← Bool.not_eq_true, hhelp.isHelpRequested_iff]
    rintro ⟨id, s, hs, hasks⟩
    exact hsilent id s hs hasks
  · rw [hhelp'.isHelpRequested_iff]
    cases hitems with
    | nothing hnone =>
      refine iff_of_false ?_ (by simp)
      rintro ⟨id, s, hs, hasks⟩
      rw [(scope_parse hnames hparsed args).1 id (hnone id)] at hs
      exact hsilent id s hs hasks
    | @items id s items rest hselects hscope hcut hroom hend =>
      have hread := scope_parse_of_selects hnames hparsed hselects hscope hcut hroom hend
      rw [← Scope.asksForHelp_afterAll_iff (hhelp.startsWithHelp id s hscope)
        (hfresh id s hscope) hcut]
      constructor
      · rintro ⟨id', s', hs', hasks⟩
        rw [hread] at hs'
        split at hs'
        · obtain rfl := Except.ok.inj hs'
          exact hasks
        · exact absurd hasks (hsilent id' s' hs')
      · intro hasks
        exact ⟨id, s.afterAll items, by rw [hread, if_pos rfl], hasks⟩

/-- A registry with a second flag for the name `--help`, which takes a value. -/
def secondHelp : Registry :=
  (start 1 "press" "" {}).performAll
    [.declareFlag "help" (some 'h') .string "" "" none,
      .declareFlag "name" none .string "" "" none]

theorem isHelpRequested_parse_iff_sample :
    (∃ items, secondHelp.Processes ["--name", "--help", "-h", "--help"] items ∧
        ¬ ∃ item ∈ items, item.tokens.head? = some "--help") ∧
      (secondHelp.parse ["--name", "x", "--help", "--nope"]).2 = .error (.unknownFlag "--nope") ∧
      ∃ items, secondHelp.Processes ["--name", "x", "--help", "--nope"] items ∧
        ∃ item ∈ items, item.tokens.head? = some "--help" := by
  have hr : secondHelp.Reachable := .performAll (.start ..) _
  have hmax : secondHelp.config.maxFlags ≠ 0 := by decide +kernel
  have hparsed : secondHelp.parsed = false := by decide +kernel
  obtain ⟨_, ⟨items, hitems⟩, hiff⟩ :=
    isHelpRequested_parse_iff hr hmax hparsed ["--name", "--help", "-h", "--help"]
  obtain ⟨_, ⟨items', hitems'⟩, hiff'⟩ :=
    isHelpRequested_parse_iff hr hmax hparsed ["--name", "x", "--help", "--nope"]
  refine ⟨⟨items, hitems, ?_⟩, by decide +kernel, items', hitems', ?_⟩
  · rw [← hiff items hitems]
    decide +kernel
  · rw [← hiff' items' hitems']
    decide +kernel

end Registry

end CommandLine

import CommandLine.Proofs.Growth

/-!
# What a help text depends on

A help text shows what was declared and the scope that is selected, and nothing else.

1. `SameDeclared.help_eq`: registries that were declared alike, with the same subcommand selected,
   have the same help text. Rows and widths are read off the declarations of a scope, which have no
   values.
2. A parse leaves a registry declared as it was, so the text after it is the one before it, up to
   the selection (`help_parse`). What the tokens say, and whether they are refused, does not show
   (`help_parse_eq`).
-/

namespace CommandLine

namespace Help

/-! ## Scopes -/

theorem filterMap_long_declarations (s : Scope) :
    s.declarations.filterMap (·.long) = s.flags.filterMap (·.long) := by
  unfold Scope.declarations
  rw [List.filterMap_map]
  rfl

theorem map_flagRow_declarations (s : Scope) (width : Nat) :
    s.declarations.map (flagRow width) = s.flags.map (flagRow width) := by
  unfold Scope.declarations
  rw [List.map_map]
  rfl

section SameDeclared

variable {s s' : Scope}

theorem scopeWidth_eq (h : s.SameDeclared s') : scopeWidth s' = scopeWidth s := by
  unfold scopeWidth
  rw [← filterMap_long_declarations, ← filterMap_long_declarations, h.declarations_eq, h.name_eq]

theorem flagRows_eq (h : s.SameDeclared s') : flagRows s' = flagRows s := by
  unfold flagRows
  rw [← map_flagRow_declarations, ← map_flagRow_declarations, h.declarations_eq, scopeWidth_eq h]

theorem positionalSection_eq (h : s.SameDeclared s') :
    positionalSection s'.positional = positionalSection s.positional := by
  unfold positionalSection
  rw [h.name_eq, h.description_eq]

theorem scopeSections_eq (h : s.SameDeclared s') : scopeSections s' = scopeSections s := by
  unfold scopeSections
  rw [positionalSection_eq h, flagRows_eq h]

end SameDeclared

end Help

namespace Registry

/-! ## Registries -/

/-- The scope that is selected: that of a subcommand, or else the global one. -/
def selectedId (r : Registry) : ScopeId := r.active.elim .global .subcommand

theorem selectedId_eq_global_iff {r : Registry} : r.selectedId = .global ↔ r.active = none := by
  unfold selectedId
  cases r.active <;> simp

theorem selectedId_eq_subcommand_iff {r : Registry} {slot : Nat} :
    r.selectedId = .subcommand slot ↔ r.active = some slot := by
  unfold selectedId
  cases r.active <;> simp

theorem selectedId_inj {r q : Registry} : q.selectedId = r.selectedId ↔ q.active = r.active := by
  unfold selectedId
  cases q.active <;> cases r.active <;> simp

section SameDeclared

variable {r q : Registry}

theorem SameDeclared.length_subcommands_eq (h : r.SameDeclared q) :
    q.subcommands.length = r.subcommands.length := by
  have hlength := congrArg List.length h.subcommands_eq
  rwa [List.length_map, List.length_map] at hlength

theorem SameDeclared.isEmpty_subcommands_eq (h : r.SameDeclared q) :
    q.subcommands.isEmpty = r.subcommands.isEmpty := by
  have hempty := congrArg List.isEmpty h.subcommands_eq
  rwa [List.isEmpty_map, List.isEmpty_map] at hempty

theorem SameDeclared.global (h : r.SameDeclared q) : r.global.SameDeclared q.global := by
  obtain ⟨t, ht, hst⟩ := h.scope .global r.global rfl
  obtain rfl := Except.ok.inj ht
  exact hst

/-- The subcommands of a number have the same name and were declared alike. -/
theorem SameDeclared.exists_subcommand (h : r.SameDeclared q) {slot : Nat} {sub : Subcommand}
    (hsub : r.subcommands[slot]? = some sub) :
    ∃ sub', q.subcommands[slot]? = some sub' ∧ sub'.name = sub.name ∧
      sub.scope.SameDeclared sub'.scope := by
  have hscope := scope_subcommand_eq_ok_iff.mpr ⟨sub, hsub, rfl⟩
  obtain ⟨t, ht, hst⟩ := h.scope _ _ hscope
  obtain ⟨sub', hsub', rfl⟩ := scope_subcommand_eq_ok_iff.mp ht
  have hheads := congrArg (·[slot]?) h.subcommands_eq
  simp only [List.getElem?_map, hsub, hsub', Option.map_some, Option.some.injEq,
    Prod.mk.injEq] at hheads
  exact ⟨sub', hsub', hheads.1, hst⟩

/-- With the same number selected, both have a selected subcommand or neither has. -/
theorem SameDeclared.activeSubcommand_cases (h : r.SameDeclared q) (hactive : q.active = r.active) :
    (r.activeSubcommand = none ∧ q.activeSubcommand = none) ∨
      ∃ sub sub', r.activeSubcommand = some sub ∧ q.activeSubcommand = some sub' ∧
        sub'.name = sub.name ∧ sub.scope.SameDeclared sub'.scope := by
  unfold activeSubcommand
  rw [hactive]
  rcases r.active with _ | slot
  · exact .inl ⟨rfl, rfl⟩
  · rcases hsub : r.subcommands[slot]? with _ | sub
    · have hle : q.subcommands.length ≤ slot := by
        rw [h.length_subcommands_eq]
        exact List.getElem?_eq_none_iff.mp hsub
      exact .inl ⟨hsub, List.getElem?_eq_none hle⟩
    · obtain ⟨sub', hsub', hname, hscope⟩ := h.exists_subcommand hsub
      exact .inr ⟨sub, sub', hsub, hsub', hname, hscope⟩

theorem SameDeclared.subcommandSection_eq (h : r.SameDeclared q) :
    Help.subcommandSection q = Help.subcommandSection r := by
  have hwidth : Help.subcommandWidth q = Help.subcommandWidth r := by
    have hnames := congrArg (List.map Prod.fst) h.subcommands_eq
    rw [List.map_map, List.map_map] at hnames
    unfold Help.subcommandWidth
    rw [Help.scopeWidth_eq h.global]
    exact congrArg _ hnames
  have hrows : Help.subcommandRows q = Help.subcommandRows r := by
    have hheads := congrArg (List.map fun head : String × String =>
      Help.row "    " head.1 (Help.subcommandWidth r + Help.gap) head.2) h.subcommands_eq
    rw [List.map_map, List.map_map] at hheads
    unfold Help.subcommandRows
    rw [hwidth]
    exact hheads
  unfold Help.subcommandSection
  rw [h.isEmpty_subcommands_eq, hrows]

/-- A help text depends on the declarations and on the selection only. -/
theorem SameDeclared.help_eq (h : r.SameDeclared q) (hactive : q.active = r.active) :
    q.help = r.help := by
  have hpreamble : Help.preamble q = Help.preamble r := by
    unfold Help.preamble
    rw [h.description_eq]
  have hprogram : q.programName = r.programName := by
    unfold programName
    rw [h.name_eq]
  unfold help Help.usage Help.sections
  rw [hpreamble, hprogram, h.isEmpty_subcommands_eq, h.subcommandSection_eq,
    Help.scopeSections_eq h.global]
  rcases h.activeSubcommand_cases hactive with ⟨hr, hq⟩ | ⟨sub, sub', hr, hq, hname, hscope⟩
  · rw [hr, hq]
  · simp only [hr, hq, hname, Help.scopeSections_eq hscope]

end SameDeclared

/-! ## After a parse -/

/-- The help text after a parse is the one before it, up to the selection. -/
theorem help_parse {r : Registry} (hnames : NamesAgree r) (args : List String) :
    (r.parse args).1.help = ({ r with active := (r.parse args).1.active } : Registry).help := by
  have h := sameDeclared_parse hnames args
  refine SameDeclared.help_eq ?_ rfl
  exact ⟨h.id_eq, h.name_eq, h.description_eq, h.config_eq, h.names_eq, h.helpFlags_eq,
    h.subcommands_eq, h.scope⟩

theorem selectedId_parse {r : Registry} (hr : r.Reachable) (hparsed : r.parsed = false)
    {args tokens : List String} {id : ScopeId} (hselects : r.Selects args id tokens) :
    (r.parse args).1.selectedId = id := by
  have hnames := hr.names_agree
  have hparse := fun slot => ((hr.marksAgree.2.2 hparsed).parse hnames hparsed args slot).1
  cases id with
  | global =>
    rw [selectedId_eq_global_iff, Option.eq_none_iff_forall_ne_some]
    intro slot hactive
    obtain ⟨tokens', hselects'⟩ := names_iff_exists_selects.mp ((hparse slot).mp hactive)
    cases (hselects.unique hnames hselects').1
  | subcommand slot =>
    rw [selectedId_eq_subcommand_iff, hparse]
    exact names_iff_exists_selects.mpr ⟨tokens, hselects⟩

/-- **Help does not depend on values.** After the first parse, whether it succeeds or fails, the
help text is fixed by the scope that the line has selected: two lines that select the same scope
leave the same text, and a line that selects the global scope leaves the text as it was. -/
theorem help_parse_eq {r : Registry} (hr : r.Reachable) (hparsed : r.parsed = false)
    (args args' : List String) :
    ((r.parse args).1.selectedId = (r.parse args').1.selectedId →
        (r.parse args).1.help = (r.parse args').1.help) ∧
      ((r.parse args).1.selectedId = .global → (r.parse args).1.help = r.help) ∧
      ∀ id tokens, r.Selects args id tokens → (r.parse args).1.selectedId = id := by
  have hnames := hr.names_agree
  refine ⟨fun hsame => ?_, fun hglobal => ?_, fun id tokens => selectedId_parse hr hparsed⟩
  · rw [help_parse hnames, help_parse hnames, selectedId_inj.mp hsame]
  · -- before the parse no subcommand is selected either
    have hidle : r.active = none := (hr.marksAgree.2.2 hparsed).active_eq
    rw [help_parse hnames, selectedId_eq_global_iff.mp hglobal, ← hidle]

theorem help_parse_eq_sample :
    (sample.parse ["build", "x", "-n", "a"]).2 = .ok () ∧
      (sample.parse ["build", "--ids", "1", "300"]).2 = .error (.invalidNumber "300") ∧
      (sample.parse ["build", "x", "-n", "a"]).1.help =
        (sample.parse ["build", "--ids", "1", "300"]).1.help ∧
      (sample.parse ["--tags", "a", "-c", "z"]).2 = .error (.invalidNumber "z") ∧
      (sample.parse ["--tags", "a", "-c", "z"]).1.help = sample.help := by
  have hparsed : sample.parsed = false := by decide +kernel
  obtain ⟨hsame, _, _⟩ := help_parse_eq reachable_sample hparsed ["build", "x", "-n", "a"]
    ["build", "--ids", "1", "300"]
  obtain ⟨_, hglobal, _⟩ := help_parse_eq reachable_sample hparsed ["--tags", "a", "-c", "z"] []
  exact ⟨by decide +kernel, by decide +kernel, hsame (by decide +kernel), by decide +kernel,
    hglobal (by decide +kernel)⟩

end Registry

end CommandLine

import CommandLine.Proofs.Reachable
import CommandLine.Proofs.Reading

/-!
# Selection of a scope

`Registry.Selects` says which scope a command line speaks to, and which tokens remain for it, by
the names of the subcommands alone. In a reachable registry `Registry.select` selects by that rule
(`Selects.select_eq`), and fails for an undeclared name only (`select_spec`). A run is the
selection and then the reading of the tokens that remain (`run_eq`, `run_spec`).
-/

namespace CommandLine.Registry

/-- A command line selects the global scope with all its tokens if it is empty, if there are no
subcommands or if it starts with a dash. Otherwise its first token is the name of the subcommand
that it selects, with the other tokens. -/
def Selects (r : Registry) (args : List String) (id : ScopeId) (tokens : List String) : Prop :=
  (id = .global ∧ tokens = args ∧
      (args = [] ∨ r.subcommands = [] ∨
        ∃ first ∈ args.head?, startsWithDash first = true)) ∨
    ∃ first slot sub, args = first :: tokens ∧ startsWithDash first = false ∧
      r.subcommands[slot]? = some sub ∧ sub.name = first ∧ id = .subcommand slot

/-- The registry once a scope is selected: a subcommand is marked. -/
def selected (r : Registry) : ScopeId → Registry
  | .global => r
  | .subcommand slot => r.activate slot

theorem scope_activate (r : Registry) (slot : Nat) (id : ScopeId) :
    (r.activate slot).scope id = r.scope id := by
  cases id with
  | global => rfl
  | subcommand slot' =>
    unfold scope activate
    simp only [List.getElem?_modify]
    rcases r.subcommands[slot']? with _ | sub
    · rfl
    · by_cases h : slot = slot' <;> simp [h]

theorem scope_selected (r : Registry) (id id' : ScopeId) :
    (r.selected id).scope id' = r.scope id' := by
  cases id with
  | global => rfl
  | subcommand slot => exact r.scope_activate slot id'

/-- The scope that a run leaves is the one it has read into. -/
theorem scope_setScope_selected {r : Registry} {id : ScopeId} {s : Scope}
    (h : r.scope id = .ok s) (t : Scope) :
    ((r.selected id).setScope t id).scope id = .ok t := by
  rw [scope_setScope ((r.scope_selected id id).trans h), if_pos rfl]

theorem config_selected (r : Registry) (id : ScopeId) : (r.selected id).config = r.config := by
  cases id <;> rfl

/-! ## The rule of selection -/

theorem select_of_global {r : Registry} {args : List String}
    (h : args = [] ∨ r.subcommands = [] ∨ ∃ first ∈ args.head?, startsWithDash first = true) :
    r.select args = .ok (r, .global, args) := by
  unfold select
  rcases args with _ | ⟨first, rest⟩
  · rfl
  · have hglobal : (r.subcommands.isEmpty || startsWithDash first) = true := by
      rcases h with h | h | ⟨first', hfirst, hdash⟩
      · cases h
      · rw [h]
        rfl
      · cases hfirst
        rw [hdash, Bool.or_true]
    simp only [hglobal, if_true]

theorem select_of_name {r : Registry} (hnames : NamesAgree r) {first : String}
    {rest : List String} {slot : Nat} {sub : Subcommand} (hdash : startsWithDash first = false)
    (hsub : r.subcommands[slot]? = some sub) (hname : sub.name = first) :
    r.select (first :: rest) = .ok (r.activate slot, .subcommand slot, rest) := by
  have hslot : r.slot? first = some slot := hnames.slot?_eq_some_iff.mpr ⟨sub, hsub, hname⟩
  have hlt : slot < r.subcommands.length := (List.getElem?_eq_some_iff.mp hsub).1
  have hne : r.subcommands.isEmpty = false := by
    rw [List.isEmpty_eq_false_iff]
    rintro h
    rw [h] at hlt
    exact absurd hlt (Nat.not_lt_zero slot)
  unfold select
  simp only [hne, hdash, Bool.or_self, Bool.false_eq_true, if_false, hslot, hlt, if_true]

/-- Selection follows the rule. -/
theorem Selects.select_eq {r : Registry} {args tokens : List String} {id : ScopeId}
    (hnames : NamesAgree r) (h : r.Selects args id tokens) :
    r.select args = .ok (r.selected id, id, tokens) := by
  rcases h with ⟨rfl, rfl, h⟩ | ⟨first, slot, sub, rfl, hdash, hsub, hname, rfl⟩
  · exact select_of_global h
  · exact select_of_name hnames hdash hsub hname

theorem Selects.unique {r : Registry} {args tokens tokens' : List String} {id id' : ScopeId}
    (hnames : NamesAgree r) (h : r.Selects args id tokens) (h' : r.Selects args id' tokens') :
    id = id' ∧ tokens = tokens' := by
  have heq := Except.ok.inj ((h.select_eq hnames).symm.trans (h'.select_eq hnames))
  exact ⟨congrArg (·.2.1) heq, congrArg (·.2.2) heq⟩

/-- A command line selects a scope, or starts with an undeclared name. -/
theorem select_spec {r : Registry} (hnames : NamesAgree r) (args : List String) :
    (∃ id tokens, r.Selects args id tokens) ∨
      ∃ first rest, args = first :: rest ∧ r.subcommands ≠ [] ∧ startsWithDash first = false ∧
        (∀ sub ∈ r.subcommands, sub.name ≠ first) ∧
        r.select args = .error (.unknownSubcommand first) := by
  by_cases hglobal : args = [] ∨ r.subcommands = [] ∨
      ∃ first ∈ args.head?, startsWithDash first = true
  · exact .inl ⟨.global, args, .inl ⟨rfl, rfl, hglobal⟩⟩
  · rw [not_or, not_or] at hglobal
    obtain ⟨hargs, hsubs, hdash⟩ := hglobal
    obtain ⟨first, rest, rfl⟩ := List.exists_cons_of_ne_nil hargs
    have hdash' : startsWithDash first = false := by
      by_contra h
      exact hdash ⟨first, rfl, Bool.not_eq_false _ ▸ h⟩
    rcases hslot : r.slot? first with _ | slot
    · refine .inr ⟨first, rest, rfl, hsubs, hdash', hnames.slot?_eq_none_iff.mp hslot, ?_⟩
      have hne : r.subcommands.isEmpty = false := List.isEmpty_eq_false_iff.mpr hsubs
      unfold select
      simp only [hne, hdash', Bool.or_self, Bool.false_eq_true, if_false, hslot]
    · obtain ⟨sub, hsub, hname⟩ := hnames.slot?_eq_some_iff.mp hslot
      exact .inl ⟨.subcommand slot, rest, .inr ⟨first, slot, sub, rfl, hdash', hsub, hname, rfl⟩⟩

/-- The selected scope exists. -/
theorem Selects.exists_scope {r : Registry} {args tokens : List String} {id : ScopeId}
    (h : r.Selects args id tokens) : ∃ s, r.scope id = .ok s := by
  rcases h with ⟨rfl, _, _⟩ | ⟨first, slot, sub, _, _, hsub, _, rfl⟩
  · exact ⟨r.global, rfl⟩
  · exact ⟨sub.scope, scope_subcommand_eq_ok_iff.mpr ⟨sub, hsub, rfl⟩⟩

/-! ## A run -/

theorem feed_eq {r : Registry} {id : ScopeId} {s : Scope} (h : r.scope id = .ok s)
    (tokens : List String) :
    r.feed id tokens = (r.setScope (s.feed r.config.maxPositionals tokens).1 id,
      (s.feed r.config.maxPositionals tokens).2) := by
  unfold feed
  rw [h]

theorem run_of_select_eq_error {r : Registry} {args : List String} {e : Error}
    (h : r.select args = .error e) : r.run args = (r, .error e) := by
  unfold run
  rw [h]

/-- A run selects a scope and reads the tokens that remain in it. -/
theorem run_eq {r : Registry} {args tokens : List String} {id : ScopeId} {s : Scope}
    (hnames : NamesAgree r) (hselects : r.Selects args id tokens) (hscope : r.scope id = .ok s) :
    r.run args = ((r.selected id).setScope (s.feed r.config.maxPositionals tokens).1 id,
      (s.feed r.config.maxPositionals tokens).2) := by
  unfold run
  rw [hselects.select_eq hnames]
  show (r.selected id).feed id tokens = _
  rw [feed_eq ((r.scope_selected id id).trans hscope), config_selected]

/-- A cut of the tokens that remain is read whole. -/
theorem run_of_cut {r : Registry} {args : List String} {id : ScopeId} {s : Scope}
    {items : List Item} (hnames : NamesAgree r) (hselects : r.Selects args id (Item.line items))
    (hscope : r.scope id = .ok s) (hcut : s.Cut items [])
    (hroom : s.Room r.config.maxPositionals items) :
    r.run args = ((r.selected id).setScope (s.afterAll items) id, .ok ()) := by
  have hfeed := s.feed_of_cut hcut hroom
  rw [List.append_nil, Scope.feed_nil] at hfeed
  rw [run_eq hnames hselects hscope, hfeed]

/-- A run is refused at an undeclared name, or reads a cut of the tokens that remain; it then ends,
or fails at the next token. -/
theorem run_spec {r : Registry} (hnames : NamesAgree r) (args : List String) :
    (∃ first rest, args = first :: rest ∧ r.subcommands ≠ [] ∧ startsWithDash first = false ∧
        (∀ sub ∈ r.subcommands, sub.name ≠ first) ∧
        r.run args = (r, .error (.unknownSubcommand first))) ∨
      ∃ id s items rest, r.Selects args id (Item.line items ++ rest) ∧ r.scope id = .ok s ∧
        s.Cut items rest ∧ s.Room r.config.maxPositionals items ∧
        ((rest = [] ∧ r.run args = ((r.selected id).setScope (s.afterAll items) id, .ok ())) ∨
          ∃ token more e, rest = token :: more ∧
            (s.afterAll items).FailsAt r.config.maxPositionals token more e ∧
            r.run args = ((r.selected id).setScope (s.afterAll items) id, .error e)) := by
  rcases select_spec hnames args with
    ⟨id, tokens, hselects⟩ | ⟨first, rest, hargs, hsubs, hdash, hnone, herr⟩
  · obtain ⟨s, hscope⟩ := hselects.exists_scope
    have hrun := run_eq hnames hselects hscope
    obtain ⟨items, rest, rfl, hcut, hroom,
        ⟨hrest, hfeed⟩ | ⟨token, more, e, hrest, hfails, hfeed⟩⟩ :=
      s.feed_spec r.config.maxPositionals tokens
    · rw [hfeed] at hrun
      exact .inr ⟨id, s, items, rest, hselects, hscope, hcut, hroom, .inl ⟨hrest, hrun⟩⟩
    · rw [hfeed] at hrun
      exact .inr ⟨id, s, items, rest, hselects, hscope, hcut, hroom,
        .inr ⟨token, more, e, hrest, hfails, hrun⟩⟩
  · exact .inl ⟨first, rest, hargs, hsubs, hdash, hnone, run_of_select_eq_error herr⟩

/-- A run that succeeds has read a cut of all tokens that remain. -/
theorem exists_cut_of_run_eq_ok {r r' : Registry} {args : List String} (hnames : NamesAgree r)
    (h : r.run args = (r', .ok ())) :
    ∃ id s items, r.Selects args id (Item.line items) ∧ r.scope id = .ok s ∧ s.Cut items [] ∧
      s.Room r.config.maxPositionals items ∧
      r' = (r.selected id).setScope (s.afterAll items) id := by
  rcases run_spec hnames args with ⟨first, rest, _, _, _, _, hrun⟩ |
    ⟨id, s, items, rest, hselects, hscope, hcut, hroom, ⟨rfl, hrun⟩ | ⟨token, more, e, _, _, hrun⟩⟩
  · rw [hrun] at h
    cases congrArg Prod.snd h
  · rw [List.append_nil] at hselects
    rw [hrun] at h
    exact ⟨id, s, items, hselects, hscope, hcut, hroom, (congrArg Prod.fst h).symm⟩
  · rw [hrun] at h
    cases congrArg Prod.snd h

/-- A parse that succeeds is a run that does. -/
theorem run_of_parse_eq_ok {r r' : Registry} {args : List String}
    (h : r.parse args = (r', .ok ())) :
    ({ r with parsed := true } : Registry).run args = (r', .ok ()) := by
  unfold parse at h
  split at h
  · cases h
  · simp only at h
    split at h
    · cases h
    · split at h
      · rename_i r'' heq
        cases h
        exact heq
      · cases h

/-- A run that succeeds is a parse that does, except that an empty command line may be refused. -/
theorem parse_eq_ok_of_run {r r' : Registry} {args : List String} (hparsed : r.parsed = false)
    (hargs : args ≠ [] ∨ r.config.allowEmptyArguments = true)
    (h : ({ r with parsed := true } : Registry).run args = (r', .ok ())) :
    r.parse args = (r', .ok ()) := by
  have hempty : (args.isEmpty && !r.config.allowEmptyArguments) = false := by
    rcases hargs with h | h
    · rw [List.isEmpty_eq_false_iff.mpr h, Bool.false_and]
    · rw [h, Bool.not_true, Bool.and_false]
  unfold parse
  simp only [hparsed, Bool.false_eq_true, if_false, hempty, h]

end CommandLine.Registry

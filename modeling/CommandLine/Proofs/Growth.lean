import CommandLine.Proofs.Failures
import CommandLine.Proofs.Frame

/-!
# What later operations keep

Declarations only add: every flag and every subcommand stays where it is.

1. `Keeps`: the second registry has the flags, the values and the marks of the first, and maybe more
   flags and subcommands. All operations but the first parse keep a registry in this sense
   (`keeps_of_edits`), and after it all of them do (`performAll_keeps`).
2. `Extends`: the second registry has what was declared in the first, in the same places. All
   operations extend a registry (`performAll_extends`).
3. So the first parse alone decides which subcommand is selected (`performAll_active`).
-/

namespace CommandLine

/-- Flags were added to a scope, and nothing was read into it. -/
structure Scope.Keeps (s s' : Scope) : Prop where
  flags : s.flags <+: s'.flags
  values_eq : s'.positional.values = s.positional.values

/-- Flags were added to a scope, and values may have been read into it. -/
def Scope.Extends (s s' : Scope) : Prop := s.declarations <+: s'.declarations

theorem Scope.Keeps.refl (s : Scope) : s.Keeps s := ⟨List.prefix_rfl, rfl⟩

theorem Scope.Keeps.trans {s t u : Scope} (h : s.Keeps t) (h' : t.Keeps u) : s.Keeps u :=
  ⟨h.flags.trans h'.flags, h'.values_eq.trans h.values_eq⟩

theorem Scope.Keeps.extends {s t : Scope} (h : s.Keeps t) : s.Extends t := h.flags.map _

theorem Scope.SameDeclared.extends {s t : Scope} (h : s.SameDeclared t) : s.Extends t :=
  ⟨[], (List.append_nil _).trans h.declarations_eq.symm⟩

namespace Registry

/-! ## Registries that keep what there was -/

/-- A registry with all flags, subcommands, values and marks of another, in the same places. -/
structure Keeps (r r' : Registry) : Prop where
  id_eq : r'.id = r.id
  active_eq : r'.active = r.active
  isSelected_eq : ∀ slot, r'.isSelected slot = r.isSelected slot
  names : r.subcommands.map (·.name) <+: r'.subcommands.map (·.name)
  scope : Scopewise Scope.Keeps r r'

/-- A registry with all flags and subcommands of another, in the same places. -/
structure Extends (r r' : Registry) : Prop where
  id_eq : r'.id = r.id
  names : r.subcommands.map (·.name) <+: r'.subcommands.map (·.name)
  scope : Scopewise Scope.Extends r r'

theorem Keeps.refl (r : Registry) : r.Keeps r :=
  ⟨rfl, rfl, fun _ => rfl, List.prefix_rfl, scopewise_of_scope_eq .refl fun _ => rfl⟩

theorem Keeps.trans {r q p : Registry} (h : r.Keeps q) (h' : q.Keeps p) : r.Keeps p where
  id_eq := h'.id_eq.trans h.id_eq
  active_eq := h'.active_eq.trans h.active_eq
  isSelected_eq slot := (h'.isSelected_eq slot).trans (h.isSelected_eq slot)
  names := h.names.trans h'.names
  scope := h.scope.trans (fun _ _ _ h h' => h.trans h') h'.scope

theorem Extends.refl (r : Registry) : r.Extends r :=
  ⟨rfl, List.prefix_rfl, scopewise_of_scope_eq (fun _ => List.prefix_rfl) fun _ => rfl⟩

theorem Extends.trans {r q p : Registry} (h : r.Extends q) (h' : q.Extends p) : r.Extends p where
  id_eq := h'.id_eq.trans h.id_eq
  names := h.names.trans h'.names
  scope := h.scope.trans (fun _ _ _ h h' => List.IsPrefix.trans h h') h'.scope

theorem Keeps.extends {r r' : Registry} (h : r.Keeps r') : r.Extends r' :=
  ⟨h.id_eq, h.names, h.scope.mono fun _ _ => Scope.Keeps.extends⟩

theorem SameDeclared.extends {r r' : Registry} (h : r.SameDeclared r') : r.Extends r' where
  id_eq := h.id_eq
  names := by
    have hnames := congrArg (List.map Prod.fst) h.subcommands_eq
    rw [List.map_map, List.map_map] at hnames
    exact hnames ▸ List.prefix_rfl
  scope := h.scope.mono fun _ _ => Scope.SameDeclared.extends

/-! ## Marks -/

theorem isSelected_setScope (r : Registry) (t : Scope) (id : ScopeId) (slot : Nat) :
    (r.setScope t id).isSelected slot = r.isSelected slot := by
  cases id with
  | global => rfl
  | subcommand slot' =>
    unfold setScope isSelected
    rw [List.getElem?_modify, Option.map_eq_map, Option.any_map]
    congr 1
    funext sub
    by_cases h : slot' = slot <;> simp [h]

theorem isSelected_activate (r : Registry) (slot slot' : Nat) :
    (r.activate slot).isSelected slot' =
      (r.isSelected slot' || decide (slot' = slot ∧ slot < r.subcommands.length)) := by
  unfold activate isSelected
  rw [List.getElem?_modify, Option.map_eq_map, Option.any_map]
  by_cases h : slot = slot'
  · subst h
    by_cases hlt : slot < r.subcommands.length
    · simp [hlt]
    · simp [hlt]
  · simp [h, Ne.symm h]

theorem isSelected_append {r : Registry} {names : NameTable} {sub : Subcommand}
    (hsub : sub.isActive = false) (slot : Nat) :
    ({ r with names := names, subcommands := r.subcommands ++ [sub] } : Registry).isSelected slot =
      r.isSelected slot := by
  unfold isSelected
  simp only [List.getElem?_append]
  split
  · rfl
  · rename_i hlt
    rw [List.getElem?_eq_none (by omega : r.subcommands.length ≤ slot)]
    cases h : slot - r.subcommands.length with
    | zero => simp [hsub]
    | succ n => rfl

/-! ## Operations keep a registry -/

theorem keeps_setScope {r : Registry} {id : ScopeId} {s t : Scope} (hs : r.scope id = .ok s)
    (ht : s.Keeps t) : r.Keeps (r.setScope t id) where
  id_eq := by cases id <;> rfl
  active_eq := by cases id <;> rfl
  isSelected_eq := r.isSelected_setScope t id
  names := map_name_setScope r t id ▸ List.prefix_rfl
  scope := scopewise_setScope .refl hs ht

theorem keeps_append {r : Registry} {names : NameTable} {sub : Subcommand}
    (hsub : sub.isActive = false) :
    r.Keeps { r with names := names, subcommands := r.subcommands ++ [sub] } where
  id_eq := rfl
  active_eq := rfl
  isSelected_eq := isSelected_append hsub
  names := (List.prefix_append _ _).map _
  scope := by
    intro id s hs
    refine ⟨s, ?_, .refl s⟩
    cases id with
    | global => exact hs
    | subcommand slot =>
      obtain ⟨sub', hsub', hscope⟩ := scope_subcommand_eq_ok_iff.mp hs
      have hlt : slot < r.subcommands.length := (List.getElem?_eq_some_iff.mp hsub').1
      refine scope_subcommand_eq_ok_iff.mpr ⟨sub', ?_, hscope⟩
      rw [List.getElem?_append_left hlt, hsub']

theorem Change.edit_or_parse {r r' : Registry} (h : Change r r') :
    Edit r r' ∨ ∃ args, r.parsed = false ∧ r' = (r.parse args).1 := by
  cases h with
  | errors slot => exact .inl ⟨.errors slot, rfl⟩
  | flag hscope hroom hnamed hnew =>
    exact .inl ⟨.flag hscope hroom hnamed hnew, parsed_setScope _ _ _⟩
  | help handle => exact .inl ⟨.help handle, rfl⟩
  | outOfTurn hinsert hslot => exact .inl ⟨.outOfTurn hinsert hslot, rfl⟩
  | subcommand hroom hinsert => exact .inl ⟨.subcommand hroom hinsert, rfl⟩
  | positional name description hscope =>
    exact .inl ⟨.positional name description hscope, parsed_setScope _ _ _⟩
  | parse args hparsed => exact .inr ⟨args, hparsed, rfl⟩

theorem Edit.keeps {r r' : Registry} (h : Edit r r') : r.Keeps r' := by
  obtain ⟨hchange, hsame⟩ := h
  cases hchange with
  | errors slot =>
    have hr := Keeps.refl r
    exact ⟨hr.id_eq, hr.active_eq, hr.isSelected_eq, hr.names, hr.scope⟩
  | flag hscope hroom hnamed hnew =>
    exact keeps_setScope hscope ⟨List.prefix_append _ _, rfl⟩
  | help handle =>
    have hr := Keeps.refl r
    exact ⟨hr.id_eq, hr.active_eq, hr.isSelected_eq, hr.names, hr.scope⟩
  | outOfTurn hinsert hslot =>
    have hr := Keeps.refl r
    exact ⟨hr.id_eq, hr.active_eq, hr.isSelected_eq, hr.names, hr.scope⟩
  | subcommand hroom hinsert => exact keeps_append rfl
  | positional name description hscope =>
    exact keeps_setScope hscope ⟨List.prefix_rfl, Scope.values_namePositional _ _ _⟩
  | parse args hparsed =>
    rw [parsed_parse, hparsed] at hsame
    cases hsame

theorem keeps_of_edits {r r' : Registry} (h : Edits r r') : r.Keeps r' := by
  induction h with
  | refl => exact .refl r
  | tail _ hedit ih => exact ih.trans hedit.keeps

/-- A registry that has parsed is only edited. -/
theorem edits_of_changes {r r' : Registry} (hparsed : r.parsed = true) (h : Changes r r') :
    Edits r r' := by
  induction h with
  | refl => exact .refl
  | tail _ hchange ih =>
    rcases hchange.edit_or_parse with hedit | ⟨args, hunparsed, _⟩
    · exact ih.tail hedit
    · rw [parsed_eq_of_edits ih, hparsed] at hunparsed
      cases hunparsed

theorem performAll_append (r : Registry) (before after : List Operation) :
    r.performAll (before ++ after) = (r.performAll before).performAll after :=
  List.foldl_append

theorem performAll_changes (r : Registry) (operations : List Operation) :
    Changes r (r.performAll operations) := by
  induction operations generalizing r with
  | nil => exact .refl
  | cons operation operations ih => exact (perform_changes r operation).trans (ih _)

/-- Once a registry has parsed, whatever follows keeps it. -/
theorem performAll_keeps {r : Registry} (hparsed : r.parsed = true)
    (operations : List Operation) : r.Keeps (r.performAll operations) :=
  keeps_of_edits (edits_of_changes hparsed (performAll_changes r operations))

/-! ## Operations extend a registry -/

theorem extends_of_changes {r r' : Registry} (hnames : NamesAgree r) (h : Changes r r') :
    NamesAgree r' ∧ r.Extends r' := by
  induction h with
  | refl => exact ⟨hnames, .refl r⟩
  | tail _ hchange ih =>
    obtain ⟨hnames', hextends⟩ := ih
    refine ⟨hnames'.change hchange, hextends.trans ?_⟩
    rcases hchange.edit_or_parse with hedit | ⟨args, _, rfl⟩
    · exact hedit.keeps.extends
    · exact (sameDeclared_parse hnames' args).extends

theorem perform_extends {r : Registry} (hr : r.Reachable) (operation : Operation) :
    r.Extends (r.perform operation) :=
  (extends_of_changes hr.names_agree (perform_changes r operation)).2

theorem performAll_extends {r : Registry} (hr : r.Reachable) (operations : List Operation) :
    r.Extends (r.performAll operations) :=
  (extends_of_changes hr.names_agree (performAll_changes r operations)).2

theorem id_start (id : Nat) (name description : String) (config : Config) :
    (start id name description config).id = id :=
  (keeps_of_edits (declareHelp_edits _ none)).id_eq

/-! ## The selected subcommand -/

/-- A command line starts with the name of the subcommand of a number. -/
def Names (r : Registry) (args : List String) (slot : Nat) : Prop :=
  ∃ first rest sub, args = first :: rest ∧ startsWithDash first = false ∧
    r.subcommands[slot]? = some sub ∧ sub.name = first

theorem names_iff_exists_selects {r : Registry} {args : List String} {slot : Nat} :
    r.Names args slot ↔ ∃ tokens, r.Selects args (.subcommand slot) tokens := by
  constructor
  · rintro ⟨first, rest, sub, hargs, hdash, hsub, hname⟩
    exact ⟨rest, .inr ⟨first, slot, sub, hargs, hdash, hsub, hname, rfl⟩⟩
  · rintro ⟨tokens, ⟨h, _, _⟩ | ⟨first, slot', sub, hargs, hdash, hsub, hname, hid⟩⟩
    · cases h
    · cases hid
      exact ⟨first, tokens, sub, hargs, hdash, hsub, hname⟩

/-- No subcommand is selected. -/
structure IsIdle (r : Registry) : Prop where
  active_eq : r.active = none
  isSelected_eq : ∀ slot, r.isSelected slot = false

/-- The registry keeps the number of a subcommand exactly if the subcommand is marked. -/
def MarksAgree (r : Registry) : Prop :=
  ∀ slot, r.active = some slot ↔ r.isSelected slot = true

theorem IsIdle.marksAgree {r : Registry} (h : r.IsIdle) : r.MarksAgree := by
  intro slot
  rw [h.active_eq, h.isSelected_eq]
  simp

/-- In an idle registry the marks become those of the scope that is selected. -/
theorem IsIdle.selected {r : Registry} (h : r.IsIdle) {id : ScopeId} {s : Scope}
    (hscope : r.scope id = .ok s) (slot : Nat) :
    ((r.selected id).active = some slot ↔ id = .subcommand slot) ∧
      ((r.selected id).isSelected slot = true ↔ id = .subcommand slot) := by
  cases id with
  | global => simp [Registry.selected, h.active_eq, h.isSelected_eq]
  | subcommand slot' =>
    obtain ⟨sub, hsub, _⟩ := scope_subcommand_eq_ok_iff.mp hscope
    have hlt : slot' < r.subcommands.length := (List.getElem?_eq_some_iff.mp hsub).1
    constructor
    · simp [Registry.selected, activate]
    · simp [Registry.selected, isSelected_activate, h.isSelected_eq, hlt, eq_comm]

/-- The first parse selects the subcommand that the line names, and marks it. -/
theorem IsIdle.parse {r : Registry} (h : r.IsIdle) (hnames : NamesAgree r)
    (hparsed : r.parsed = false) (args : List String) (slot : Nat) :
    ((r.parse args).1.active = some slot ↔ r.Names args slot) ∧
      ((r.parse args).1.isSelected slot = true ↔ r.Names args slot) := by
  rw [names_iff_exists_selects]
  obtain ⟨errors, ⟨hnone, hparse⟩ | ⟨id, s, items, rest, hselects, hscope, _, hparse⟩⟩ :=
    parse_fst_spec hnames hparsed args
  · have hnot : ¬ ∃ tokens, r.Selects args (.subcommand slot) tokens :=
      fun ⟨tokens, hselects⟩ => hnone _ _ hselects
    rw [hparse]
    simp only [hnot, iff_false]
    refine ⟨?_, ?_⟩
    · rw [h.active_eq]
      simp
    · exact Bool.not_eq_true _ ▸ h.isSelected_eq slot
  · have hiff : (∃ tokens, r.Selects args (.subcommand slot) tokens) ↔ id = .subcommand slot := by
      constructor
      · rintro ⟨tokens, hselects'⟩
        exact (hselects.unique hnames hselects').1
      · rintro rfl
        exact ⟨_, hselects⟩
    obtain ⟨hactive, hmark⟩ := h.selected hscope slot
    have hactive' : (r.parse args).1.active = (r.selected id).active := by
      rw [hparse]
      cases id <;> rfl
    have hmark' : (r.parse args).1.isSelected slot = (r.selected id).isSelected slot := by
      rw [hparse]
      exact isSelected_setScope _ _ _ slot
    rw [hiff, hactive', hmark']
    exact ⟨hactive, hmark⟩

theorem marksAgree_change {r r' : Registry} (hchange : Change r r')
    (h : NamesAgree r ∧ MarksAgree r ∧ (r.parsed = false → r.IsIdle)) :
    NamesAgree r' ∧ MarksAgree r' ∧ (r'.parsed = false → r'.IsIdle) := by
  obtain ⟨hnames, hmarks, hidle⟩ := h
  refine ⟨hnames.change hchange, ?_⟩
  rcases hchange.edit_or_parse with hedit | ⟨args, hparsed, rfl⟩
  · have hkeeps := hedit.keeps
    refine ⟨fun slot => ?_, fun hparsed => ?_⟩
    · rw [hkeeps.active_eq, hkeeps.isSelected_eq]
      exact hmarks slot
    · have hr := hidle (hedit.2.symm.trans hparsed)
      exact ⟨hkeeps.active_eq.trans hr.active_eq,
        fun slot => (hkeeps.isSelected_eq slot).trans (hr.isSelected_eq slot)⟩
  · refine ⟨fun slot => ?_, fun hunparsed => ?_⟩
    · obtain ⟨hactive, hmark⟩ := (hidle hparsed).parse hnames hparsed args slot
      rw [hactive, hmark]
    · rw [parsed_parse] at hunparsed
      cases hunparsed

theorem Reachable.marksAgree {r : Registry} (hr : r.Reachable) :
    NamesAgree r ∧ MarksAgree r ∧ (r.parsed = false → r.IsIdle) := by
  refine hr.induction ?_ fun _ _ h hchange => marksAgree_change hchange h
  intro id name description config
  have hidle : ({ id, name, description, config } : Registry).IsIdle := ⟨rfl, fun _ => rfl⟩
  exact ⟨NameTable.holds_empty config.hashBuckets, hidle.marksAgree, fun _ => hidle⟩

/-- **Selection.** Whatever operations are performed on a new registry, at most one subcommand is
marked, and it is the one whose number the registry keeps. That is the subcommand which the first
token of the first command line names, if it has no dash, among those declared before; what follows
the first parse changes nothing about it. -/
theorem performAll_active (id : Nat) (name description : String) (config : Config)
    (operations : List Operation) :
    let r := (start id name description config).performAll operations
    (∀ slot, r.active = some slot ↔ r.isSelected slot = true) ∧
      (∀ slot slot', r.isSelected slot = true → r.isSelected slot' = true → slot = slot') ∧
      ((∀ args, .parse args ∉ operations) → r.active = none) ∧
      ∀ before args after, operations = before ++ .parse args :: after →
        (∀ earlier, .parse earlier ∉ before) → ∀ slot, r.active = some slot ↔
          ((start id name description config).performAll before).Names args slot := by
  intro r
  have hr : r.Reachable := (Reachable.start id name description config).performAll operations
  obtain ⟨_, hmarks, hidle⟩ := hr.marksAgree
  have hunparsed : ∀ operations : List Operation, (∀ args, .parse args ∉ operations) →
      ((start id name description config).performAll operations).parsed = false := by
    intro operations hnone
    rw [← Bool.not_eq_true, parsed_performAll, parsed_start]
    rintro (h | ⟨args, hargs⟩)
    · cases h
    · exact hnone args hargs
  refine ⟨hmarks, ?_, fun hnone => (hidle (hunparsed operations hnone)).active_eq, ?_⟩
  · intro slot slot' h h'
    exact Option.some.inj (((hmarks slot).mpr h).symm.trans ((hmarks slot').mpr h'))
  · intro before args after hoperations hfirst slot
    have hq := (Reachable.start id name description config).performAll before
    have hparsed := hunparsed before hfirst
    obtain ⟨hnames, _, hidle'⟩ := hq.marksAgree
    -- what follows the parse keeps its marks
    have hkeeps := performAll_keeps (parsed_parse _ args) after
      (r := (((start id name description config).performAll before).parse args).1)
    have hactive : r.active =
        (((start id name description config).performAll before).parse args).1.active := by
      show ((start id name description config).performAll operations).active = _
      rw [hoperations, performAll_append]
      exact hkeeps.active_eq
    rw [hactive]
    exact ((hidle' hparsed).parse hnames hparsed args slot).1

theorem performAll_active_sample :
    ((start 1 "press" "" { hashBuckets := 1 }).performAll
      [.declareSubcommand "build" "", .declareSubcommand "run" "", .parse ["run", "--all"],
        .declareSubcommand "clean" "", .parse ["build"]]).active = some 1 := by
  refine ((performAll_active 1 "press" "" { hashBuckets := 1 } _).2.2.2
    [.declareSubcommand "build" "", .declareSubcommand "run" ""] _ _ rfl (by simp) 1).mpr ?_
  have hrun : (((start 1 "press" "" { hashBuckets := 1 }).performAll
      [.declareSubcommand "build" "", .declareSubcommand "run" ""]).subcommands[1]?).map
        (·.name) = some "run" := by decide +kernel
  obtain ⟨sub, hsub, hname⟩ := Option.map_eq_some_iff.mp hrun
  exact ⟨"run", ["--all"], sub, rfl, by decide, hsub, hname⟩

end Registry

end CommandLine

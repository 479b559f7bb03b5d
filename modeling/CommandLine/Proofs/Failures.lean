import CommandLine.Proofs.Invariant

/-!
# Internal failures

An operation guards itself against registries that contradict themselves: a name whose number is no
subcommand's, a number that the table of names gives out of turn, a flag index that is not in the
scope, positional values that are not kept as texts. No such registry can be reached. What a host
still sees as internal failures are its own mistakes: a flag declared without a name, and a second
parse (`internal_failure_iff`).

1. Where positional values are kept as texts, reading a line is refused for the reasons of
   `Scope.Refuses` and for an undeclared name, none of them internal (`kind_mem_of_run_eq_error`).
2. A declaration finds the scope that it names, or there is no subcommand of the name
   (`bind_scope_eq_error`); its other failures come from the limits or from a name that is taken.
-/

namespace CommandLine

/-! ## Reading -/

/-- The kinds of failure that the tokens of a scope give. -/
def ErrorKind.ofTokens : List ErrorKind :=
  [.unknownFlag, .cluster, .tooManyPositionals, .missingValue, .invalidNumber]

theorem Flag.Refuses.kind_mem {f : Flag} {tokens : List String} {e : Error}
    (h : f.Refuses tokens e) : e.kind ∈ ErrorKind.ofTokens := by
  cases h <;> simp [Error.kind, ErrorKind.ofTokens]

/-- A token is refused for a few reasons only, none of them internal. -/
theorem Scope.Refuses.kind_mem {limit : Nat} {s : Scope} {token : String} {rest : List String}
    {e : Error} (h : s.Refuses limit token rest e) : e.kind ∈ ErrorKind.ofTokens := by
  cases h with
  | dash => simp [Error.kind, ErrorKind.ofTokens]
  | long hname hnone => simp [Error.kind, ErrorKind.ofTokens]
  | short hc hnone => simp [Error.kind, ErrorKind.ofTokens]
  | cluster htoken hc => simp [Error.kind, ErrorKind.ofTokens]
  | full htoken hfull => simp [Error.kind, ErrorKind.ofTokens]
  | value hname hflag hvalue => exact hvalue.kind_mem

namespace Registry

theorem kind_mem_of_run_eq_error {r : Registry} (hnames : NamesAgree r) (htexts : HoldsTexts r)
    {args : List String} {e : Error} (h : (r.run args).2 = .error e) :
    e.kind ∈ ErrorKind.unknownSubcommand :: ErrorKind.ofTokens := by
  rcases run_spec hnames args with ⟨first, rest, _, _, _, _, hrun⟩ |
    ⟨id, s, items, rest, _, hscope, _, _, ⟨_, hrun⟩ | ⟨token, more, e', _, hfails, hrun⟩⟩
  · rw [hrun] at h
    cases h
    exact List.mem_cons_self
  · rw [hrun] at h
    cases h
  · rw [hrun] at h
    cases h
    have hrefuses := hfails.refuses (Scope.kind_list_afterAll (htexts id s hscope) items)
    exact List.mem_cons_of_mem _ hrefuses.kind_mem

theorem run_ne_internal {r : Registry} (hnames : NamesAgree r) (htexts : HoldsTexts r)
    (args : List String) (detail : String) : (r.run args).2 ≠ .error (.internal detail) := by
  intro h
  have hmem : ErrorKind.internal ∈ ErrorKind.unknownSubcommand :: ErrorKind.ofTokens :=
    kind_mem_of_run_eq_error hnames htexts h
  exact absurd hmem (by decide)

/-- A parse fails internally exactly if it is not the first one. -/
theorem parse_eq_internal_iff {r : Registry} (hnames : NamesAgree r) (htexts : HoldsTexts r)
    (args : List String) (detail : String) :
    (r.parse args).2 = .error (.internal detail) ↔
      r.parsed = true ∧ detail = "registry already parsed" := by
  unfold parse fail
  cases hparsed : r.parsed with
  | true => simp [eq_comm]
  | false =>
    have hrun := run_ne_internal (r := { r with parsed := true }) hnames htexts args detail
    simp only [Bool.false_eq_true, if_false, false_and, iff_false]
    split
    · simp
    · split
      · simp
      · rename_i r' e heq
        rw [heq] at hrun
        exact hrun

/-! ## Reasons of a declaration to fail -/

theorem bind_eq_error {α β : Type} {x : Except Error α} {f : α → Except Error β} {e : Error} :
    x >>= f = .error e ↔ x = .error e ∨ ∃ a, x = .ok a ∧ f a = .error e := by
  cases x <;> simp [bind, Except.bind]

theorem map_eq_error {α β : Type} {x : Except Error α} {f : α → β} {e : Error} :
    x.map f = .error e ↔ x = .error e := by
  cases x <;> simp [Except.map]

theorem declared_eq_error {α : Type} {r : Registry} {result : Except Error (Registry × α)}
    {e : Error} : (r.declared result).2 = .error e ↔ result = .error e := by
  rcases result with e' | ⟨r', a⟩ <;> simp [declared]

theorem exists_scope_of_scopeOf {r : Registry} (hnames : NamesAgree r) {scope? : Option String}
    {id : ScopeId} (h : r.scopeOf scope? = .ok id) : ∃ s, r.scope id = .ok s := by
  cases scope? with
  | none =>
    cases h
    exact ⟨r.global, rfl⟩
  | some name =>
    rcases hslot : r.slot? name with _ | slot
    · simp [scopeOf, hslot] at h
    · simp only [scopeOf, hslot] at h
      cases h
      obtain ⟨sub, hsub, _⟩ := hnames.slot?_eq_some_iff.mp hslot
      exact ⟨sub.scope, scope_subcommand_eq_ok_iff.mpr ⟨sub, hsub, rfl⟩⟩

/-- The name that a declaration gives for its scope is that of no subcommand. -/
def UnknownScope (r : Registry) (scope? : Option String) (e : Error) : Prop :=
  ∃ name, scope? = some name ∧ (∀ sub ∈ r.subcommands, sub.name ≠ name) ∧
    e = .unknownSubcommand name

theorem scopeOf_eq_error {r : Registry} (hnames : NamesAgree r) {scope? : Option String}
    {e : Error} (h : r.scopeOf scope? = .error e) : r.UnknownScope scope? e := by
  cases scope? with
  | none => cases h
  | some name =>
    rcases hslot : r.slot? name with _ | slot
    · simp only [scopeOf, hslot] at h
      exact ⟨name, rfl, hnames.slot?_eq_none_iff.mp hslot, (Except.error.inj h).symm⟩
    · simp [scopeOf, hslot] at h

/-- A declaration in a scope fails if there is no such scope, or as it fails in the scope. -/
theorem bind_scope_eq_error {α : Type} {r : Registry} (hnames : NamesAgree r)
    {scope? : Option String} {declare : ScopeId → Scope → Except Error α} {e : Error}
    (h : (r.scopeOf scope? >>= fun id => r.scope id >>= declare id) = .error e) :
    r.UnknownScope scope? e ∨
      ∃ id s, r.scopeOf scope? = .ok id ∧ r.scope id = .ok s ∧ declare id s = .error e := by
  rcases bind_eq_error.mp h with herr | ⟨id, hid, h⟩
  · exact .inl (scopeOf_eq_error hnames herr)
  · obtain ⟨s, hs⟩ := exists_scope_of_scopeOf hnames hid
    rw [hs] at h
    exact .inr ⟨id, s, hid, hs, h⟩

/-- A flag is refused if it has no name, if there is no scope as named or if the scope is full. -/
theorem addFlag_eq_error {r : Registry} (hnames : NamesAgree r) {flag : Flag}
    {scope? : Option String} {e : Error} (h : r.addFlag flag scope? = .error e) :
    (flag.isNamed = false ∧ e = .internal "flag declared without a name") ∨
      (flag.isNamed = true ∧ r.UnknownScope scope? e) ∨
      flag.isNamed = true ∧ ∃ id s, r.scopeOf scope? = .ok id ∧ r.scope id = .ok s ∧
        r.config.maxFlags ≤ s.flags.length ∧ e = .full "flags" r.config.maxFlags := by
  unfold addFlag at h
  cases hnamed : flag.isNamed with
  | false =>
    simp only [hnamed, Bool.not_false, if_true] at h
    exact .inl ⟨rfl, (Except.error.inj h).symm⟩
  | true =>
    simp only [hnamed, Bool.not_true, Bool.false_eq_true, if_false] at h
    rcases bind_scope_eq_error hnames h with herr | ⟨id, s, hid, hs, h⟩
    · exact .inr (.inl ⟨rfl, herr⟩)
    · rcases bind_eq_error.mp h with hadd | ⟨_, _, h⟩
      · unfold Scope.addFlag at hadd
        split at hadd
        · rename_i hfull
          exact .inr (.inr ⟨rfl, id, s, hid, hs, hfull, (Except.error.inj hadd).symm⟩)
        · cases hadd
      · cases h

theorem insert?_eq_none_iff {r : Registry} (hnames : NamesAgree r) {name : String} :
    r.names.insert? name = none ↔ ∃ sub ∈ r.subcommands, sub.name = name := by
  rw [NameTable.Holds.insert?_eq_none_iff hnames, List.mem_map]

/-- A subcommand is refused if there are too many, or if one has its name. -/
theorem declareSubcommand_eq_error {r : Registry} (hnames : NamesAgree r)
    {name description : String} {e : Error}
    (h : (r.declareSubcommand name description).2 = .error e) :
    (r.config.maxSubcommands ≤ r.subcommands.length ∧
        e = .full "subcommands" r.config.maxSubcommands) ∨
      r.subcommands.length < r.config.maxSubcommands ∧ (∃ sub ∈ r.subcommands, sub.name = name) ∧
        e = .duplicateSubcommand name := by
  rcases r.declareSubcommand_cases name description with ⟨hfull, heq⟩ | ⟨hroom, ⟨hinsert, heq⟩ |
    ⟨slot, names, hinsert, hslot, _⟩ | ⟨names, hinsert, heq⟩⟩
  · rw [heq] at h
    exact .inl ⟨hfull, (Except.error.inj h).symm⟩
  · rw [heq] at h
    exact .inr ⟨hroom, (insert?_eq_none_iff hnames).mp hinsert, (Except.error.inj h).symm⟩
  · exact absurd (hnames.slot_eq_length hinsert) hslot
  · rw [heq] at h
    cases h

/-- The positional argument of a scope is refused if there is no scope as named. -/
theorem addPositional_eq_error {r : Registry} (hnames : NamesAgree r)
    {name description : String} {scope? : Option String} {e : Error}
    (h : r.addPositional name description scope? = .error e) : r.UnknownScope scope? e := by
  rcases bind_scope_eq_error hnames h with herr | ⟨id, s, _, _, h⟩
  · exact herr
  · cases h

/-! ## Internal failures of a declaration -/

theorem UnknownScope.ne_internal {r : Registry} {scope? : Option String} {e : Error}
    (h : r.UnknownScope scope? e) (detail : String) : e ≠ .internal detail := by
  obtain ⟨name, _, _, rfl⟩ := h
  simp

theorem addFlag_eq_internal_iff {r : Registry} (hnames : NamesAgree r) (flag : Flag)
    (scope? : Option String) (detail : String) :
    r.addFlag flag scope? = .error (.internal detail) ↔
      flag.isNamed = false ∧ detail = "flag declared without a name" := by
  constructor
  · intro h
    rcases addFlag_eq_error hnames h with ⟨hnamed, he⟩ | ⟨_, he⟩ | ⟨_, id, s, _, _, _, he⟩
    · exact ⟨hnamed, Error.internal.inj he⟩
    · exact absurd rfl (he.ne_internal detail)
    · cases he
  · rintro ⟨hnamed, rfl⟩
    unfold addFlag
    rw [hnamed]
    rfl

theorem isSome_nonEmpty?_eq_false_iff {text : String} :
    (nonEmpty? text).isSome = false ↔ text = "" := by
  unfold nonEmpty?
  split <;> simp_all

/-- A flag has no name if neither is given. -/
theorem isNamed_eq_false_iff {f : Flag} {long : String} (hlong : f.long = nonEmpty? long) :
    f.isNamed = false ↔ long = "" ∧ f.short = none := by
  unfold Flag.isNamed
  rw [Bool.or_eq_false_iff, hlong, isSome_nonEmpty?_eq_false_iff, Option.isSome_eq_false_iff,
    Option.isNone_iff_eq_none]

/-! ## Histories -/

theorem parsed_parse (r : Registry) (args : List String) : (r.parse args).1.parsed = true := by
  cases hparsed : r.parsed with
  | true =>
    unfold parse
    rw [if_pos hparsed]
    exact hparsed
  | false => exact (sameNames_parse args hparsed).parsed_eq

theorem parsed_perform (r : Registry) (operation : Operation) :
    (r.perform operation).parsed = true ↔
      r.parsed = true ∨ ∃ args, .parse args = operation := by
  cases operation with
  | declareFlag long short k default description scope? =>
    have h := parsed_eq_of_edits (r.declareFlag_edits long short k default description scope?)
    simp [perform, h]
  | declareListFlag long short k description scope? =>
    have h := parsed_eq_of_edits (r.declareListFlag_edits long short k description scope?)
    simp [perform, h]
  | declareSubcommand name description =>
    have h := parsed_eq_of_edits (r.declareSubcommand_edits name description)
    simp [perform, h]
  | declarePositional name description scope? =>
    have h := parsed_eq_of_edits (r.declarePositional_edits name description scope?)
    simp [perform, h]
  | parse args => simp [perform, r.parsed_parse args]
  | lastError => simp [perform, lastError]
  | clearError => simp [perform, clearError]

/-- A registry has parsed if one of its operations was a parse. -/
theorem parsed_performAll (r : Registry) (operations : List Operation) :
    (r.performAll operations).parsed = true ↔
      r.parsed = true ∨ ∃ args, .parse args ∈ operations := by
  induction operations generalizing r with
  | nil => simp [performAll]
  | cons operation operations ih =>
    show ((r.perform operation).performAll operations).parsed = true ↔ _
    rw [ih, parsed_perform]
    simp only [List.mem_cons, exists_or, or_assoc]

theorem parsed_start (id : Nat) (name description : String) (config : Config) :
    (start id name description config).parsed = false :=
  parsed_eq_of_edits (declareHelp_edits _ none)

/-- **Internal failures.** Whatever operations were performed on a new registry, a subcommand and a
positional argument are never refused internally, a flag is exactly if it is given no name, and a
parse exactly if it is not the first one. -/
theorem internal_failure_iff (id : Nat) (name description : String) (config : Config)
    (operations : List Operation) :
    let r := (start id name description config).performAll operations
    (∀ sub text detail, (r.declareSubcommand sub text).2 ≠ .error (.internal detail)) ∧
      (∀ long short k default text scope? detail,
        (r.declareFlag long short k default text scope?).2 = .error (.internal detail) ↔
          (long = "" ∧ short = none) ∧ detail = "flag declared without a name") ∧
      (∀ long short k text scope? detail,
        (r.declareListFlag long short k text scope?).2 = .error (.internal detail) ↔
          (long = "" ∧ short = none) ∧ detail = "flag declared without a name") ∧
      (∀ positional text scope? detail,
        (r.declarePositional positional text scope?).2 ≠ .error (.internal detail)) ∧
      ∀ args detail, (r.parse args).2 = .error (.internal detail) ↔
        (∃ earlier, .parse earlier ∈ operations) ∧ detail = "registry already parsed" := by
  intro r
  have hr : r.Reachable := (Reachable.start id name description config).performAll operations
  have hnames : NamesAgree r := hr.names_agree
  have hparsed : r.parsed = true ↔ ∃ earlier, .parse earlier ∈ operations := by
    rw [parsed_performAll, parsed_start]
    simp
  refine ⟨?_, ?_, ?_, ?_, ?_⟩
  · intro sub text detail h
    rcases declareSubcommand_eq_error hnames h with ⟨_, he⟩ | ⟨_, _, he⟩
    · cases he
    · cases he
  · intro long short k default text scope? detail
    unfold declareFlag
    rw [declared_eq_error, map_eq_error, addFlag_eq_internal_iff hnames, isNamed_eq_false_iff rfl]
    rfl
  · intro long short k text scope? detail
    unfold declareListFlag
    rw [declared_eq_error, map_eq_error, addFlag_eq_internal_iff hnames, isNamed_eq_false_iff rfl]
    rfl
  · intro positional text scope? detail h
    exact (addPositional_eq_error hnames (declared_eq_error.mp h)).ne_internal detail rfl
  · intro args detail
    rw [parse_eq_internal_iff hnames hr.holdsTexts, hparsed]

end Registry

end CommandLine

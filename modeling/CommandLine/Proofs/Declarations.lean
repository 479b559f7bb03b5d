import CommandLine.Proofs.Failures
import CommandLine.Proofs.Invariant

/-!
# Refused declarations

A declaration is refused for few reasons, which can be told from what is declared, and a refused
declaration changes nothing but the error slot (`declarations_failFor`).

1. `Named` is the scope that a declaration speaks of, without the table of names; in a reachable
   registry it is the scope that the declaration finds (`named_iff`).
2. `RefusesFlag`, `RefusesSubcommand` and `UnknownScope` list the reasons, each under the condition
   that the earlier ones do not apply.
3. A subcommand enters the table of names before its number is checked. The check never fails, since
   the table has as many names as there are subcommands, so no name is left behind.
-/

namespace CommandLine.Registry

/-! ## Scopes by name -/

/-- The scope that a declaration speaks of: the global one, or that of the subcommand of a name. -/
def Named (r : Registry) : Option String → Scope → Prop
  | none, s => r.global = s
  | some name, s => ∃ sub ∈ r.subcommands, sub.name = name ∧ sub.scope = s

theorem scopeOf_eq_ok_iff {r : Registry} (hnames : NamesAgree r) {scope? : Option String}
    {id : ScopeId} :
    r.scopeOf scope? = .ok id ↔ (scope? = none ∧ id = .global) ∨
      ∃ slot sub, r.subcommands[slot]? = some sub ∧ scope? = some sub.name ∧
        id = .subcommand slot := by
  cases scope? with
  | none => simp [scopeOf, eq_comm]
  | some name =>
    rcases hslot : r.slot? name with _ | slot
    · have hnone := hnames.slot?_eq_none_iff.mp hslot
      simp only [scopeOf, hslot, reduceCtorEq, false_and, false_or, false_iff]
      rintro ⟨slot, sub, hsub, hname, _⟩
      exact hnone sub (List.mem_of_getElem? hsub) (Option.some.inj hname).symm
    · obtain ⟨sub, hsub, rfl⟩ := hnames.slot?_eq_some_iff.mp hslot
      simp only [scopeOf, hslot, reduceCtorEq, false_and, false_or]
      constructor
      · rintro ⟨⟩
        exact ⟨slot, sub, hsub, rfl, rfl⟩
      · rintro ⟨slot', sub', hsub', hname, rfl⟩
        -- a name has one number only
        have hslot' := hnames.slot?_eq_some_iff.mpr ⟨sub', hsub', (Option.some.inj hname).symm⟩
        rw [Option.some.inj (hslot.symm.trans hslot')]

theorem named_iff {r : Registry} (hnames : NamesAgree r) {scope? : Option String} {s : Scope} :
    r.Named scope? s ↔ ∃ id, r.scopeOf scope? = .ok id ∧ r.scope id = .ok s := by
  simp only [scopeOf_eq_ok_iff hnames]
  constructor
  · intro h
    cases scope? with
    | none => exact ⟨.global, .inl ⟨rfl, rfl⟩, congrArg Except.ok h⟩
    | some name =>
      obtain ⟨sub, hmem, rfl, rfl⟩ := h
      obtain ⟨slot, hsub⟩ := List.getElem?_of_mem hmem
      exact ⟨.subcommand slot, .inr ⟨slot, sub, hsub, rfl, rfl⟩,
        scope_subcommand_eq_ok_iff.mpr ⟨sub, hsub, rfl⟩⟩
  · rintro ⟨id, ⟨rfl, rfl⟩ | ⟨slot, sub, hsub, rfl, rfl⟩, hs⟩
    · exact Except.ok.inj hs
    · obtain ⟨sub', hsub', rfl⟩ := scope_subcommand_eq_ok_iff.mp hs
      obtain rfl := Option.some.inj (hsub.symm.trans hsub')
      exact ⟨sub, List.mem_of_getElem? hsub, rfl, rfl⟩

theorem scopeOf_eq_error_iff {r : Registry} (hnames : NamesAgree r) {scope? : Option String}
    {e : Error} : r.scopeOf scope? = .error e ↔ r.UnknownScope scope? e := by
  refine ⟨scopeOf_eq_error hnames, ?_⟩
  rintro ⟨name, rfl, hnone, rfl⟩
  simp only [scopeOf, hnames.slot?_eq_none_iff.mpr hnone]

/-! ## Reasons -/

/-- Why a flag is refused: it has no name; or else there is no scope as named; or else the scope has
as many flags as it may. -/
inductive RefusesFlag (r : Registry) (long : String) (short : Option Char)
    (scope? : Option String) : Error → Prop
  | nameless (hlong : long = "") (hshort : short = none) :
      RefusesFlag r long short scope? (.internal "flag declared without a name")
  | unknown {e : Error} (hnamed : long ≠ "" ∨ short ≠ none) (hscope : r.UnknownScope scope? e) :
      RefusesFlag r long short scope? e
  | full {s : Scope} (hnamed : long ≠ "" ∨ short ≠ none) (hscope : r.Named scope? s)
      (hfull : s.flags.length = r.config.maxFlags) :
      RefusesFlag r long short scope? (.full "flags" r.config.maxFlags)

/-- Why a subcommand is refused: there are as many as there may be; or else one has its name. -/
inductive RefusesSubcommand (r : Registry) (name : String) : Error → Prop
  | full (hfull : r.subcommands.length = r.config.maxSubcommands) :
      RefusesSubcommand r name (.full "subcommands" r.config.maxSubcommands)
  | duplicate (hroom : r.subcommands.length < r.config.maxSubcommands)
      (htaken : ∃ sub ∈ r.subcommands, sub.name = name) :
      RefusesSubcommand r name (.duplicateSubcommand name)

/-- A declaration fails exactly for some reasons. Then it leaves the registry as it was, except that
it keeps the failure, unless an earlier one was not read yet. -/
structure FailsFor {α : Type} (r : Registry) (outcome : Registry × Except Error α)
    (reason : Error → Prop) : Prop where
  error_iff : ∀ e, outcome.2 = .error e ↔ reason e
  registry_eq : ∀ e, outcome.2 = .error e →
    outcome.1 = { r with errors := r.errors.recordFirst e }

/-! ## Each declaration -/

/-- The help flag that every scope declares by itself. -/
def helpFlag : Flag := .scalar "help" none .bool false "Print this help message"

theorem failsFor_declared {α : Type} {r : Registry} {result : Except Error (Registry × α)}
    {reason : Error → Prop} (h : ∀ e, result = .error e ↔ reason e) :
    r.FailsFor (r.declared result) reason where
  error_iff e := declared_eq_error.trans (h e)
  registry_eq e he := by rw [declared_eq_error.mp he, declared]

theorem addFlag_of_named {r : Registry} {flag : Flag} {scope? : Option String} {id : ScopeId}
    {s : Scope} (hnamed : flag.isNamed = true) (hid : r.scopeOf scope? = .ok id)
    (hs : r.scope id = .ok s) :
    r.addFlag flag scope? =
      (s.addFlag flag r.config.maxFlags).map fun (s', index) => (r.setScope s' id, id, index) := by
  unfold addFlag
  simp only [hnamed, Bool.not_true, Bool.false_eq_true, if_false, hid, hs, bind, Except.bind]
  cases s.addFlag flag r.config.maxFlags <;> rfl

/-- How the declaration of a flag or of a positional argument ends: it is refused, which goes to the
error slot, or it changes one scope. -/
inductive EndsInScope {α : Type} (r : Registry) : Registry × Except Error α → Prop
  | refused (e : Error) : EndsInScope r ({ r with errors := r.errors.recordFirst e }, .error e)
  | changed (t : Scope) (id : ScopeId) (a : α) : EndsInScope r (r.setScope t id, .ok a)

theorem endsInScope_declared_addFlag {α : Type} (r : Registry) (flag : Flag)
    (scope? : Option String) (mk : ScopeId → Nat → α) :
    r.EndsInScope
      (r.declared ((r.addFlag flag scope?).map fun (r', id, index) => (r', mk id index))) := by
  rcases hadd : r.addFlag flag scope? with e | ⟨r', id, index⟩
  · exact .refused e
  · obtain ⟨_, _, s, _, _, _, rfl⟩ := addFlag_eq_ok hadd
    exact .changed _ id (mk id index)

theorem endsInScope_declarePositional (r : Registry) (name description : String)
    (scope? : Option String) : r.EndsInScope (r.declarePositional name description scope?) := by
  unfold declarePositional
  rcases hadd : r.addPositional name description scope? with e | ⟨r', handle⟩
  · exact .refused e
  · obtain ⟨id, s, _, _, heq⟩ := addPositional_eq_ok hadd
    cases heq
    exact .changed _ id _

/-- A help flag goes to the end of its scope, and the registry keeps its place. -/
theorem declareHelp_of_room {r : Registry} {scope? : Option String} {id : ScopeId} {s : Scope}
    (hid : r.scopeOf scope? = .ok id) (hs : r.scope id = .ok s)
    (hroom : s.flags.length < r.config.maxFlags) :
    r.declareHelp scope? =
      { r.setScope { s with flags := s.flags ++ [helpFlag] } id with
        helpFlags := r.helpFlags ++ [⟨r.id, id, s.flags.length⟩] } := by
  unfold declareHelp declareFlag
  rw [addFlag_of_named rfl hid hs, Scope.addFlag, if_neg (by omega)]
  cases id <;> rfl

/-- In a full scope the help flag is left out, and the failure goes to the error slot. -/
theorem declareHelp_of_full {r : Registry} {scope? : Option String} {id : ScopeId} {s : Scope}
    (hid : r.scopeOf scope? = .ok id) (hs : r.scope id = .ok s)
    (hfull : r.config.maxFlags ≤ s.flags.length) :
    r.declareHelp scope? =
      { r with errors := r.errors.recordFirst (.full "flags" r.config.maxFlags) } := by
  unfold declareHelp declareFlag
  rw [addFlag_of_named rfl hid hs, Scope.addFlag, if_pos hfull]
  rfl

/-- A subcommand that was just added is found under its name, and its scope is empty. -/
theorem scopeOf_append_subcommand {r : Registry} (hnames : NamesAgree r)
    {name description : String} {names : NameTable}
    (hroom : r.subcommands.length < r.config.maxSubcommands)
    (hinsert : r.names.insert? name = some (r.subcommands.length, names)) :
    let added : Registry := { r with
      names := names
      subcommands := r.subcommands ++ [{ name := name, description := description }] }
    added.scopeOf (some name) = .ok (.subcommand r.subcommands.length) ∧
      added.scope (.subcommand r.subcommands.length) = .ok {} := by
  intro added
  have hadded : NamesAgree added := hnames.change (.subcommand hroom hinsert)
  have hsub : added.subcommands[r.subcommands.length]? =
      some { name := name, description := description } := List.getElem?_concat_length
  exact ⟨(scopeOf_eq_ok_iff hadded).mpr (.inr ⟨_, _, hsub, rfl, rfl⟩),
    scope_subcommand_eq_ok_iff.mpr ⟨_, hsub, rfl⟩⟩

theorem addFlag_eq_error_iff {r : Registry} (hnames : NamesAgree r) (hlimits : InLimits r)
    {flag : Flag} {long : String} (hlong : flag.long = nonEmpty? long) {scope? : Option String}
    {e : Error} :
    r.addFlag flag scope? = .error e ↔ r.RefusesFlag long flag.short scope? e := by
  have hnameless := isNamed_eq_false_iff hlong
  have hnamed : flag.isNamed = true ↔ long ≠ "" ∨ flag.short ≠ none := by
    rw [← Bool.not_eq_false, hnameless, Classical.not_and_iff_not_or_not]
  constructor
  · intro h
    rcases addFlag_eq_error hnames h with ⟨hno, rfl⟩ | ⟨hyes, hscope⟩ |
      ⟨hyes, id, s, hid, hs, hfull, rfl⟩
    · obtain ⟨hlong', hshort⟩ := hnameless.mp hno
      exact .nameless hlong' hshort
    · exact .unknown (hnamed.mp hyes) hscope
    · -- the scope cannot have more flags than the limit
      have hle := (hlimits.scope id s hs).length_flags_le
      exact .full (hnamed.mp hyes) ((named_iff hnames).mpr ⟨id, hid, hs⟩) (by omega)
  · rintro (⟨hlong', hshort⟩ | ⟨hyes, hscope⟩ | ⟨hyes, hscope, hfull⟩)
    · exact (addFlag_eq_internal_iff hnames flag scope? _).mpr ⟨hnameless.mpr ⟨hlong', hshort⟩, rfl⟩
    · unfold addFlag
      simp only [hnamed.mpr hyes, (scopeOf_eq_error_iff hnames).mpr hscope]
      rfl
    · obtain ⟨id, hid, hs⟩ := (named_iff hnames).mp hscope
      rw [addFlag_of_named (hnamed.mpr hyes) hid hs, Scope.addFlag, if_pos (by omega)]
      rfl

theorem addPositional_eq_error_iff {r : Registry} (hnames : NamesAgree r)
    {name description : String} {scope? : Option String} {e : Error} :
    r.addPositional name description scope? = .error e ↔ r.UnknownScope scope? e := by
  refine ⟨addPositional_eq_error hnames, fun hscope => ?_⟩
  unfold addPositional
  rw [(scopeOf_eq_error_iff hnames).mpr hscope]
  rfl

/-- A refused subcommand leaves no name behind. -/
theorem failsFor_declareSubcommand {r : Registry} (hnames : NamesAgree r) (hlimits : InLimits r)
    (name description : String) :
    r.FailsFor (r.declareSubcommand name description) (r.RefusesSubcommand name) := by
  have hle := hlimits.length_le
  rcases r.declareSubcommand_cases name description with ⟨hfull, heq⟩ | ⟨hroom, ⟨hinsert, heq⟩ |
    ⟨slot, names, hinsert, hslot, _⟩ | ⟨names, hinsert, heq⟩⟩
  · rw [heq]
    refine failsFor_declared fun e => ⟨?_, ?_⟩
    · rintro ⟨⟩
      exact .full (by omega)
    · rintro (_ | ⟨hroom, _⟩)
      · rfl
      · omega
  · rw [heq]
    refine failsFor_declared fun e => ⟨?_, ?_⟩
    · rintro ⟨⟩
      exact .duplicate hroom ((insert?_eq_none_iff hnames).mp hinsert)
    · rintro (hfull | _)
      · omega
      · rfl
  · exact absurd (hnames.slot_eq_length hinsert) hslot
  · rw [heq]
    refine ⟨fun e => ⟨?_, ?_⟩, ?_⟩
    · rintro ⟨⟩
    · rintro (hfull | ⟨_, htaken⟩)
      · omega
      · rw [(insert?_eq_none_iff hnames).mpr htaken] at hinsert
        cases hinsert
    · rintro e ⟨⟩

/-- **Refused declarations.** Whatever operations were performed on a new registry, a flag of either
shape, a subcommand and a positional argument are refused exactly for the reasons listed, and a
refused declaration leaves the registry as it was up to the error slot. -/
theorem declarations_failFor (id : Nat) (name description : String) (config : Config)
    (operations : List Operation) :
    let r := (start id name description config).performAll operations
    (∀ long short k default text scope?,
        r.FailsFor (r.declareFlag long short k default text scope?)
          (r.RefusesFlag long short scope?)) ∧
      (∀ long short k text scope?,
        r.FailsFor (r.declareListFlag long short k text scope?)
          (r.RefusesFlag long short scope?)) ∧
      (∀ sub text, r.FailsFor (r.declareSubcommand sub text) (r.RefusesSubcommand sub)) ∧
      ∀ positional text scope?,
        r.FailsFor (r.declarePositional positional text scope?) (r.UnknownScope scope?) := by
  intro r
  have hr := (Reachable.start id name description config).performAll operations
  have hnames : NamesAgree r := hr.names_agree
  have hlimits : InLimits r := hr.inLimits
  refine ⟨?_, ?_, failsFor_declareSubcommand hnames hlimits, ?_⟩
  · intro long short k default text scope?
    refine failsFor_declared fun e => ?_
    rw [map_eq_error]
    exact addFlag_eq_error_iff hnames hlimits rfl
  · intro long short k text scope?
    refine failsFor_declared fun e => ?_
    rw [map_eq_error]
    exact addFlag_eq_error_iff hnames hlimits rfl
  · intro positional text scope?
    exact failsFor_declared fun e => addPositional_eq_error_iff hnames

end CommandLine.Registry

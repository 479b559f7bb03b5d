import CommandLine.Registry.Parse
import CommandLine.Proofs.Item
import CommandLine.Proofs.NameTable
import Mathlib.Logic.Relation

/-!
# Reachable registries

A registry is reachable if a host comes to it from a new one by declarations, parses, and reading
or forgetting the last failure, whether each of them succeeds or not.

1. `Registry.Change` lists what one operation can do to a registry, and `perform_changes` says that
   every operation is a sequence of such changes. A declaration is one without a parse (`Edits`).
2. `Reachable.induction`: a property of new registries that every change keeps holds of all
   reachable ones.
3. In particular the table of names holds the names of the subcommands (`Reachable.names_agree`),
   and before the command line is parsed every value is its default (`Reachable.isFresh`).
-/

namespace CommandLine

/-- A flag as it is declared: its value is its default, and a list is empty. -/
structure Flag.IsNew (f : Flag) : Prop where
  value_eq : f.value = f.default
  items_eq : ∀ l, f.default = .list l → l.items = []

namespace Registry

/-! ## Scopes in a registry -/

theorem scope_subcommand_eq_ok_iff {r : Registry} {slot : Nat} {s : Scope} :
    r.scope (.subcommand slot) = .ok s ↔
      ∃ sub, r.subcommands[slot]? = some sub ∧ sub.scope = s := by
  rcases hsub : r.subcommands[slot]? with _ | sub
  · simp [scope, hsub]
  · simp [scope, hsub]

theorem scope_setScope {r : Registry} {id : ScopeId} {s : Scope} (h : r.scope id = .ok s)
    (t : Scope) (id' : ScopeId) :
    (r.setScope t id).scope id' = if id' = id then .ok t else r.scope id' := by
  cases id with
  | global => cases id' <;> rfl
  | subcommand slot =>
    cases id' with
    | global => rfl
    | subcommand slot' =>
      obtain ⟨sub, hsub, _⟩ := scope_subcommand_eq_ok_iff.mp h
      unfold setScope scope
      simp only [List.getElem?_modify, ScopeId.subcommand.injEq]
      by_cases hslot : slot' = slot
      · subst hslot
        simp [hsub]
      · have hslot' : slot ≠ slot' := fun h => hslot h.symm
        simp [hslot, hslot']

theorem setScope_self {r : Registry} {id : ScopeId} {s : Scope} (hs : r.scope id = .ok s) :
    r.setScope s id = r := by
  cases id with
  | global =>
    obtain rfl := Except.ok.inj hs
    rfl
  | subcommand slot =>
    obtain ⟨sub, hsub, rfl⟩ := scope_subcommand_eq_ok_iff.mp hs
    have hsame : r.subcommands.modify slot ({ · with scope := sub.scope }) = r.subcommands := by
      refine List.ext_getElem? fun i => ?_
      rw [List.getElem?_modify]
      by_cases hi : slot = i
      · subst hi
        simp [hsub]
      · simp [hi]
    unfold setScope
    simp only [hsame]

/-- A property of all scopes stays one when a scope with the property takes the place of another. -/
theorem forall_scope_setScope {P : Scope → Prop} {r : Registry} {id : ScopeId} {s t : Scope}
    (h : ∀ id' s', r.scope id' = .ok s' → P s') (hscope : r.scope id = .ok s) (ht : P t) :
    ∀ id' s', (r.setScope t id).scope id' = .ok s' → P s' := by
  intro id' s' hs'
  rw [scope_setScope hscope] at hs'
  split at hs'
  · cases hs'
    exact ht
  · exact h id' s' hs'

/-- Without declarations there is the global scope only, and it is empty. -/
theorem eq_empty_of_scope_blank {id : Nat} {name description : Option String} {config : Config}
    {id' : ScopeId} {s : Scope}
    (h : ({ id, name, description, config } : Registry).scope id' = .ok s) : s = {} := by
  cases id' with
  | global => exact (Except.ok.inj h).symm
  | subcommand slot =>
    obtain ⟨sub, hsub, _⟩ := scope_subcommand_eq_ok_iff.mp h
    cases hsub

theorem map_name_setScope (r : Registry) (t : Scope) (id : ScopeId) :
    (r.setScope t id).subcommands.map (·.name) = r.subcommands.map (·.name) := by
  cases id with
  | global => rfl
  | subcommand slot =>
    unfold setScope
    rw [map_modify_of_forall]
    intro sub
    rfl

theorem map_name_activate (r : Registry) (slot : Nat) :
    (r.activate slot).subcommands.map (·.name) = r.subcommands.map (·.name) := by
  unfold activate
  rw [map_modify_of_forall]
  intro sub
  rfl

theorem names_setScope (r : Registry) (t : Scope) (id : ScopeId) :
    (r.setScope t id).names = r.names := by
  cases id <;> rfl

theorem parsed_setScope (r : Registry) (t : Scope) (id : ScopeId) :
    (r.setScope t id).parsed = r.parsed := by
  cases id <;> rfl

theorem config_setScope (r : Registry) (t : Scope) (id : ScopeId) :
    (r.setScope t id).config = r.config := by
  cases id <;> rfl

/-- A new subcommand brings its own scope, and the other scopes stay. -/
theorem scope_append_subcommand {r : Registry} {names : NameTable} {sub : Subcommand}
    {id : ScopeId} {s : Scope}
    (h : ({ r with names := names, subcommands := r.subcommands ++ [sub] } : Registry).scope id =
      .ok s) : r.scope id = .ok s ∨ s = sub.scope := by
  cases id with
  | global => exact .inl h
  | subcommand slot =>
    obtain ⟨sub', hsub, rfl⟩ := scope_subcommand_eq_ok_iff.mp h
    simp only [List.getElem?_append] at hsub
    split at hsub
    · exact .inl (scope_subcommand_eq_ok_iff.mpr ⟨sub', hsub, rfl⟩)
    · have hnew := List.mem_singleton.mp (List.mem_of_getElem? hsub)
      rw [hnew]
      exact .inr rfl

/-! ## Operations -/

/-- What a host can do to a registry. -/
inductive Operation where
  | declareFlag (long : String) (short : Option Char) (k : Kind) (default : k.Carrier)
      (description : String) (scope? : Option String)
  | declareListFlag (long : String) (short : Option Char) (k : Kind) (description : String)
      (scope? : Option String)
  | declareSubcommand (name description : String)
  | declarePositional (name description : String) (scope? : Option String)
  | parse (args : List String)
  | lastError
  | clearError

/-- The registry after an operation, whether it succeeds or not. -/
def perform (r : Registry) : Operation → Registry
  | .declareFlag long short k default description scope? =>
    (r.declareFlag long short k default description scope?).1
  | .declareListFlag long short k description scope? =>
    (r.declareListFlag long short k description scope?).1
  | .declareSubcommand name description => (r.declareSubcommand name description).1
  | .declarePositional name description scope? =>
    (r.declarePositional name description scope?).1
  | .parse args => (r.parse args).1
  | .lastError => r.lastError.2
  | .clearError => r.clearError

/-- The registry after operations, one by one. -/
def performAll (r : Registry) (operations : List Operation) : Registry :=
  operations.foldl perform r

/-- A registry that a host comes to from a new one. -/
inductive Reachable : Registry → Prop
  | start (id : Nat) (name description : String) (config : Config) :
      Reachable (.start id name description config)
  | perform {r : Registry} (h : Reachable r) (operation : Operation) :
      Reachable (r.perform operation)

theorem Reachable.performAll {r : Registry} (h : Reachable r) (operations : List Operation) :
    Reachable (r.performAll operations) := by
  induction operations generalizing r with
  | nil => exact h
  | cons operation operations ih => exact ih (h.perform operation)

/-! ## Changes -/

/-- One change of a registry: another failure in the slot, a flag at the end of a scope, the handle
of a help flag, a name that the table numbers out of turn, a subcommand at the end of the table, a
name for the positional argument of a scope, or the first parse. -/
inductive Change (r : Registry) : Registry → Prop
  | errors (slot : ErrorSlot) : Change r { r with errors := slot }
  | flag {id : ScopeId} {scope : Scope} {flag : Flag} (hscope : r.scope id = .ok scope)
      (hroom : scope.flags.length < r.config.maxFlags) (hnamed : flag.isNamed = true)
      (hnew : flag.IsNew) :
      Change r (r.setScope { scope with flags := scope.flags ++ [flag] } id)
  | help (handle : FlagHandle .bool) : Change r { r with helpFlags := r.helpFlags ++ [handle] }
  | outOfTurn {name : String} {slot : Nat} {names : NameTable}
      (hinsert : r.names.insert? name = some (slot, names))
      (hslot : slot ≠ r.subcommands.length) : Change r { r with names := names }
  | subcommand {name description : String} {names : NameTable}
      (hroom : r.subcommands.length < r.config.maxSubcommands)
      (hinsert : r.names.insert? name = some (r.subcommands.length, names)) :
      Change r { r with
        names := names
        subcommands := r.subcommands ++ [{ name := name, description := description }] }
  | positional {id : ScopeId} {scope : Scope} (name description : String)
      (hscope : r.scope id = .ok scope) :
      Change r (r.setScope (scope.namePositional name description) id)
  | parse (args : List String) (hparsed : r.parsed = false) : Change r (r.parse args).1

/-- A registry goes over into another by finitely many changes. -/
abbrev Changes : Registry → Registry → Prop := Relation.ReflTransGen Change

/-- A change other than a parse. -/
def Edit (r r' : Registry) : Prop := Change r r' ∧ r'.parsed = r.parsed

/-- A registry goes over into another by finitely many changes, none of them a parse. -/
abbrev Edits : Registry → Registry → Prop := Relation.ReflTransGen Edit

theorem changes_of_edits {r r' : Registry} (h : Edits r r') : Changes r r' :=
  Relation.ReflTransGen.mono (fun _ _ hedit => hedit.1) _ _ h

theorem parsed_eq_of_edits {r r' : Registry} (h : Edits r r') : r'.parsed = r.parsed := by
  induction h with
  | refl => rfl
  | tail _ hedit ih => exact hedit.2.trans ih

/-! ## Operations as changes -/

/-- A declaration leads to the registry it gives, or changes the error slot. -/
theorem declared_edits {α : Type} {r : Registry} {result : Except Error (Registry × α)}
    (h : ∀ r' a, result = .ok (r', a) → Edits r r') : Edits r (r.declared result).1 := by
  rcases result with e | ⟨r', a⟩
  · exact .single ⟨.errors _, rfl⟩
  · exact h r' a rfl

theorem bind_eq_ok {ε α β : Type} {x : Except ε α} {f : α → Except ε β} {b : β} :
    x >>= f = .ok b ↔ ∃ a, x = .ok a ∧ f a = .ok b := by
  cases x <;> simp [bind, Except.bind]

theorem toOption_eq_some_iff {ε α : Type} {x : Except ε α} {a : α} :
    x.toOption = some a ↔ x = .ok a := by
  cases x <;> simp [Except.toOption]

theorem map_eq_ok {α β : Type} {x : Except Error α} {f : α → β} {b : β} :
    x.map f = .ok b ↔ ∃ a, x = .ok a ∧ f a = b := by
  cases x <;> simp [Except.map]

theorem addFlag_eq_ok {r r' : Registry} {flag : Flag} {scope? : Option String} {id : ScopeId}
    {index : Nat} (h : r.addFlag flag scope? = .ok (r', id, index)) :
    flag.isNamed = true ∧ r.scopeOf scope? = .ok id ∧ ∃ scope, r.scope id = .ok scope ∧
      scope.flags.length < r.config.maxFlags ∧ index = scope.flags.length ∧
      r' = r.setScope { scope with flags := scope.flags ++ [flag] } id := by
  unfold addFlag at h
  split at h
  · cases h
  · rename_i hnamed
    obtain ⟨id', hid, h⟩ := bind_eq_ok.mp h
    obtain ⟨scope, hscope, h⟩ := bind_eq_ok.mp h
    obtain ⟨⟨scope', index'⟩, hadd, h⟩ := bind_eq_ok.mp h
    unfold Scope.addFlag at hadd
    split at hadd
    · cases hadd
    · rename_i hroom
      cases hadd
      cases h
      exact ⟨by simpa using hnamed, hid, scope, hscope, by omega, rfl, rfl⟩

theorem addFlag_edit {r r' : Registry} {flag : Flag} {scope? : Option String} {id : ScopeId}
    {index : Nat} (hnew : flag.IsNew) (h : r.addFlag flag scope? = .ok (r', id, index)) :
    Edit r r' := by
  obtain ⟨hnamed, _, scope, hscope, hroom, _, rfl⟩ := addFlag_eq_ok h
  exact ⟨.flag hscope hroom hnamed hnew, parsed_setScope _ _ _⟩

theorem declareFlag_edits (r : Registry) (long : String) (short : Option Char) (k : Kind)
    (default : k.Carrier) (description : String) (scope? : Option String) :
    Edits r (r.declareFlag long short k default description scope?).1 := by
  refine declared_edits fun r' handle h => ?_
  obtain ⟨⟨r'', id, index⟩, hadd, heq⟩ := map_eq_ok.mp h
  obtain rfl : r'' = r' := congrArg Prod.fst heq
  exact .single (addFlag_edit ⟨rfl, fun l hl => by cases hl⟩ hadd)

theorem declareListFlag_edits (r : Registry) (long : String) (short : Option Char) (k : Kind)
    (description : String) (scope? : Option String) :
    Edits r (r.declareListFlag long short k description scope?).1 := by
  refine declared_edits fun r' handle h => ?_
  obtain ⟨⟨r'', id, index⟩, hadd, heq⟩ := map_eq_ok.mp h
  obtain rfl : r'' = r' := congrArg Prod.fst heq
  refine .single (addFlag_edit ⟨rfl, fun l hl => ?_⟩ hadd)
  cases hl
  rfl

theorem declareHelp_edits (r : Registry) (scope? : Option String) :
    Edits r (r.declareHelp scope?) := by
  have h := r.declareFlag_edits "help" none .bool false "Print this help message" scope?
  unfold declareHelp
  split
  · rename_i r' handle heq
    rw [heq] at h
    exact h.tail ⟨.help handle, rfl⟩
  · rename_i r' e heq
    rw [heq] at h
    exact h

/-- What declaring a subcommand comes to: it is refused at the limit or for its name, it stops
halfway because of its number, or it is added with a help flag. -/
theorem declareSubcommand_cases (r : Registry) (name description : String) :
    (r.config.maxSubcommands ≤ r.subcommands.length ∧ r.declareSubcommand name description =
        r.declared (.error (.full "subcommands" r.config.maxSubcommands))) ∨
      r.subcommands.length < r.config.maxSubcommands ∧
        ((r.names.insert? name = none ∧ r.declareSubcommand name description =
            r.declared (.error (.duplicateSubcommand name))) ∨
          (∃ slot names, r.names.insert? name = some (slot, names) ∧ slot ≠ r.subcommands.length ∧
            r.declareSubcommand name description = ({ r with names := names } : Registry).declared
              (.error (.internal s!"name index slot {slot} out of step"))) ∨
          ∃ names, r.names.insert? name = some (r.subcommands.length, names) ∧
            r.declareSubcommand name description = (({ r with
              names := names
              subcommands := r.subcommands ++ [{ name := name, description := description }] } :
              Registry).declareHelp (some name), .ok ⟨r.id, r.subcommands.length⟩)) := by
  unfold declareSubcommand addSubcommand
  by_cases hfull : r.config.maxSubcommands ≤ r.subcommands.length
  · simp only [if_pos hfull]
    exact .inl ⟨hfull, rfl⟩
  · refine .inr ⟨Nat.lt_of_not_le hfull, ?_⟩
    rcases hinsert : r.names.insert? name with _ | ⟨slot, names⟩
    · simp only [if_neg hfull]
      exact .inl ⟨trivial, rfl⟩
    · by_cases hslot : slot = r.subcommands.length
      · subst hslot
        simp only [if_neg hfull, ne_eq, not_true_eq_false, if_false]
        exact .inr (.inr ⟨names, rfl, rfl⟩)
      · simp only [if_neg hfull, if_pos hslot]
        exact .inr (.inl ⟨slot, names, rfl, hslot, rfl⟩)

theorem declareSubcommand_edits (r : Registry) (name description : String) :
    Edits r (r.declareSubcommand name description).1 := by
  rcases r.declareSubcommand_cases name description with ⟨_, h⟩ | ⟨hroom, ⟨_, h⟩ |
    ⟨slot, names, hinsert, hslot, h⟩ | ⟨names, hinsert, h⟩⟩
  · rw [h]
    exact .single ⟨.errors _, rfl⟩
  · rw [h]
    exact .single ⟨.errors _, rfl⟩
  · rw [h]
    exact .head ⟨.outOfTurn hinsert hslot, rfl⟩ (.single ⟨.errors _, rfl⟩)
  · rw [h]
    exact .head ⟨.subcommand hroom hinsert, rfl⟩ (declareHelp_edits _ _)

/-- A positional argument is declared in a scope that is there. -/
theorem addPositional_eq_ok {r : Registry} {name description : String} {scope? : Option String}
    {result : Registry × PositionalHandle}
    (h : r.addPositional name description scope? = .ok result) :
    ∃ id s, r.scopeOf scope? = .ok id ∧ r.scope id = .ok s ∧
      result = (r.setScope (s.namePositional name description) id, ⟨r.id, id⟩) := by
  obtain ⟨id, hid, h⟩ := bind_eq_ok.mp h
  obtain ⟨s, hs, h⟩ := bind_eq_ok.mp h
  exact ⟨id, s, hid, hs, (Except.ok.inj h).symm⟩

theorem declarePositional_edits (r : Registry) (name description : String)
    (scope? : Option String) : Edits r (r.declarePositional name description scope?).1 := by
  refine declared_edits fun r' handle h => ?_
  obtain ⟨id, scope, _, hscope, heq⟩ := addPositional_eq_ok h
  cases heq
  exact .single ⟨.positional name description hscope, parsed_setScope _ _ _⟩

theorem parse_changes (r : Registry) (args : List String) : Changes r (r.parse args).1 := by
  by_cases hparsed : r.parsed = true
  · unfold parse
    rw [if_pos hparsed]
    exact .single (.errors _)
  · exact .single (.parse args (Bool.not_eq_true _ ▸ hparsed))

/-- Every operation is a sequence of changes. -/
theorem perform_changes (r : Registry) (operation : Operation) :
    Changes r (r.perform operation) := by
  cases operation with
  | declareFlag long short k default description scope? =>
    exact changes_of_edits (r.declareFlag_edits long short k default description scope?)
  | declareListFlag long short k description scope? =>
    exact changes_of_edits (r.declareListFlag_edits long short k description scope?)
  | declareSubcommand name description =>
    exact changes_of_edits (r.declareSubcommand_edits name description)
  | declarePositional name description scope? =>
    exact changes_of_edits (r.declarePositional_edits name description scope?)
  | parse args => exact r.parse_changes args
  | lastError => exact .single (.errors _)
  | clearError => exact .single (.errors _)

/-- A property that a registry without declarations has, and that every change keeps, holds of all
reachable registries. -/
theorem Reachable.induction {P : Registry → Prop}
    (hblank : ∀ id name description config, P { id, name, description, config })
    (hchange : ∀ r r' : Registry, P r → Change r r' → P r') {r : Registry} (h : Reachable r) :
    P r := by
  have hchanges : ∀ r r' : Registry, P r → Changes r r' → P r' := by
    intro r r' hr hsteps
    induction hsteps with
    | refl => exact hr
    | tail _ hstep ih => exact hchange _ _ ih hstep
  induction h with
  | start id name description config =>
    exact hchanges _ _ (hblank id _ _ config) (changes_of_edits (declareHelp_edits _ none))
  | perform _ operation ih => exact hchanges _ _ ih (perform_changes _ operation)

/-! ## What parsing keeps -/

theorem select_eq_ok {r q : Registry} {args tokens : List String} {id : ScopeId}
    (h : r.select args = .ok (q, id, tokens)) :
    (q = r ∧ id = .global ∧ tokens = args) ∨
      ∃ first slot, args = first :: tokens ∧ r.subcommands ≠ [] ∧ startsWithDash first = false ∧
        r.slot? first = some slot ∧ slot < r.subcommands.length ∧ q = r.activate slot ∧
        id = .subcommand slot := by
  unfold select at h
  split at h
  · cases h
    exact .inl ⟨rfl, rfl, rfl⟩
  · rename_i first rest
    split at h
    · cases h
      exact .inl ⟨rfl, rfl, rfl⟩
    · rename_i hglobal
      rw [Bool.or_eq_true, not_or, List.isEmpty_iff, Bool.not_eq_true] at hglobal
      split at h
      · cases h
      · rename_i slot hslot
        split at h
        · rename_i hlt
          cases h
          exact .inr ⟨first, slot, rfl, hglobal.1, hglobal.2, hslot, hlt, rfl, rfl⟩
        · cases h

/-- Reading tokens replaces one scope at most. -/
theorem feed_fst (r : Registry) (id : ScopeId) (tokens : List String) :
    (r.feed id tokens).1 = r ∨ ∃ s, (r.feed id tokens).1 = r.setScope s id := by
  unfold feed
  split
  · exact .inl rfl
  · exact .inr ⟨_, rfl⟩

/-- A registry with the names of another, in its table and on its subcommands, that has parsed if
the other has. -/
structure SameNames (r r' : Registry) : Prop where
  names_eq : r'.names = r.names
  map_name_eq : r'.subcommands.map (·.name) = r.subcommands.map (·.name)
  parsed_eq : r'.parsed = r.parsed

theorem SameNames.length_subcommands_eq {r r' : Registry} (h : SameNames r r') :
    r'.subcommands.length = r.subcommands.length := by
  have hlength := congrArg List.length h.map_name_eq
  rwa [List.length_map, List.length_map] at hlength

theorem sameNames_run (r : Registry) (args : List String) : SameNames r (r.run args).1 := by
  have hfeed : ∀ (q : Registry) id tokens, SameNames r q → SameNames r (q.feed id tokens).1 := by
    intro q id tokens hq
    rcases q.feed_fst id tokens with h | ⟨s, h⟩
    · rw [h]
      exact hq
    · rw [h]
      exact ⟨(names_setScope q s id).trans hq.names_eq,
        (map_name_setScope q s id).trans hq.map_name_eq,
        (parsed_setScope q s id).trans hq.parsed_eq⟩
  unfold run
  split
  · exact ⟨rfl, rfl, rfl⟩
  · rename_i q id tokens hselect
    apply hfeed
    rcases select_eq_ok hselect with ⟨rfl, _, _⟩ | ⟨first, slot, _, _, _, _, _, rfl, _⟩
    · exact ⟨rfl, rfl, rfl⟩
    · exact ⟨rfl, map_name_activate r slot, rfl⟩

theorem sameNames_parse {r : Registry} (args : List String) (hparsed : r.parsed = false) :
    SameNames { r with parsed := true } (r.parse args).1 := by
  unfold parse
  rw [if_neg (by rw [hparsed]; decide)]
  simp only
  split
  · exact ⟨rfl, rfl, rfl⟩
  · have hrun := sameNames_run { r with parsed := true } args
    split
    · rename_i r' heq
      rw [heq] at hrun
      exact hrun
    · rename_i r' e heq
      rw [heq] at hrun
      exact ⟨hrun.names_eq, hrun.map_name_eq, hrun.parsed_eq⟩

/-! ## The table of names -/

/-- The table of names holds the names of the subcommands, in order. -/
def NamesAgree (r : Registry) : Prop := r.names.Holds (r.subcommands.map (·.name))

theorem NamesAgree.setScope {r : Registry} (h : NamesAgree r) (s : Scope) (id : ScopeId) :
    NamesAgree (r.setScope s id) := by
  unfold NamesAgree
  rw [names_setScope, map_name_setScope]
  exact h

/-- The number that the table gives a new name is that of the next subcommand. -/
theorem NamesAgree.slot_eq_length {r : Registry} (h : NamesAgree r) {name : String} {slot : Nat}
    {names : NameTable} (hinsert : r.names.insert? name = some (slot, names)) :
    slot = r.subcommands.length :=
  (h.insert? hinsert).1.trans (List.length_map _)

theorem NamesAgree.change {r r' : Registry} (h : NamesAgree r) (hchange : Change r r') :
    NamesAgree r' := by
  cases hchange with
  | errors slot => exact h
  | flag hscope hroom hnamed hnew => exact h.setScope _ _
  | help handle => exact h
  | outOfTurn hinsert hslot => exact absurd (h.slot_eq_length hinsert) hslot
  | subcommand hroom hinsert =>
    unfold NamesAgree
    rw [List.map_append]
    exact (h.insert? hinsert).2
  | positional name description hscope => exact h.setScope _ _
  | parse args hparsed =>
    have hsame := sameNames_parse args hparsed
    unfold NamesAgree
    rw [hsame.names_eq, hsame.map_name_eq]
    exact h

/-- In a reachable registry the table of names holds the names of the subcommands. -/
theorem Reachable.names_agree {r : Registry} (h : Reachable r) : NamesAgree r :=
  h.induction (fun _ _ _ config => NameTable.holds_empty config.hashBuckets)
    fun _ _ hr hchange => hr.change hchange

theorem NamesAgree.slot?_eq_some_iff {r : Registry} (h : NamesAgree r) {name : String}
    {slot : Nat} :
    r.slot? name = some slot ↔ ∃ sub, r.subcommands[slot]? = some sub ∧ sub.name = name := by
  unfold slot?
  rw [h.find?_eq_some_iff, List.getElem?_map, Option.map_eq_some_iff]

theorem NamesAgree.slot?_eq_none_iff {r : Registry} (h : NamesAgree r) {name : String} :
    r.slot? name = none ↔ ∀ sub ∈ r.subcommands, sub.name ≠ name := by
  unfold slot?
  rw [h.find?_eq_none_iff, List.mem_map]
  simp

end Registry

/-! ## Values before parsing -/

/-- Nothing was read into a scope: no flag was given, and there are no positional values. -/
structure Scope.IsFresh (s : Scope) : Prop where
  isNew : ∀ f ∈ s.flags, f.IsNew
  values_eq : s.positional.values = []

namespace Registry

/-- Nothing was read into any scope of a registry. -/
def IsFresh (r : Registry) : Prop := ∀ id s, r.scope id = .ok s → s.IsFresh

/-- A declaration reads nothing. -/
theorem IsFresh.change {r r' : Registry} (h : r.parsed = false → IsFresh r)
    (hchange : Change r r') (hparsed : r'.parsed = false) : IsFresh r' := by
  cases hchange with
  | errors slot => exact h hparsed
  | flag hscope hroom hnamed hnew =>
    rw [parsed_setScope] at hparsed
    have hfresh := h hparsed _ _ hscope
    refine forall_scope_setScope (h hparsed) hscope ⟨fun f hf => ?_, hfresh.values_eq⟩
    rcases List.mem_append.mp hf with hf | hf
    · exact hfresh.isNew f hf
    · rw [List.mem_singleton.mp hf]
      exact hnew
  | help handle => exact h hparsed
  | outOfTurn hinsert hslot => exact h hparsed
  | subcommand hroom hinsert =>
    intro id s hs
    rcases scope_append_subcommand hs with hs | rfl
    · exact h hparsed id s hs
    · exact ⟨fun f hf => absurd hf List.not_mem_nil, rfl⟩
  | positional name description hscope =>
    rw [parsed_setScope] at hparsed
    have hfresh := h hparsed _ _ hscope
    exact forall_scope_setScope (h hparsed) hscope
      ⟨hfresh.isNew, (Scope.values_namePositional _ _ _).trans hfresh.values_eq⟩
  | parse args hunparsed =>
    rw [(sameNames_parse args hunparsed).parsed_eq] at hparsed
    cases hparsed

/-- Before a reachable registry parses, every value is its default. -/
theorem Reachable.isFresh {r : Registry} (h : Reachable r) (hparsed : r.parsed = false) :
    IsFresh r := by
  refine h.induction (P := fun r => r.parsed = false → IsFresh r) ?_
    (fun r r' hr hchange => IsFresh.change hr hchange) hparsed
  intro id name description config _ id' s hs
  rw [eq_empty_of_scope_blank hs]
  exact ⟨fun f hf => absurd hf List.not_mem_nil, rfl⟩

/-! ## A registry for examples -/

/-- A registry with flags of every shape, two of them under names that earlier ones have, and a
subcommand with flags of its own. -/
def sample : Registry :=
  List.foldl perform (.start 1 "press" "" { maxPositionals := 2, hashBuckets := 2 })
    [.declareFlag "count" (some 'c') (.int .i32) (.zero .i32) "" none,
      .declareFlag "count" (some 'c') .string "unset" "" none,
      .declareListFlag "tags" none .string "" none,
      .declareSubcommand "build" "",
      .declareListFlag "ids" (some 'i') (.int .i8) "" (some "build"),
      .declareFlag "name" (some 'n') .string "draft" "" (some "build"),
      .declareFlag "ids" none .bool false "" (some "build")]

theorem reachable_sample : Reachable sample := .performAll (.start ..) _

end Registry

end CommandLine

import CommandLine.Proofs.Declarations
import CommandLine.Proofs.Script
import Mathlib.Data.List.Forall2

/-!
# Registries that reflect a script

1. `Registry.Reflects`: a registry is what a script of declarations asks for, scope by scope.
2. A declaration that does not fail leads from a registry that reflects the script so far to one
   that reflects it as well (`Reflects.make`), unless there cannot be room for it
   (`Reflects.make_eq_stopped`). One that fails is an error under its own title
   (`Reflects.make_eq_refused`, `Declaration.context_of_make_eq_error`).
3. So a script runs through if none of its declarations fails or asks for too much room, and
   otherwise ends at the first one that does (`Reflects.foldlM_eq_ok`, `Reflects.foldlM_eq_error`).
-/

namespace CommandLine

open Manifest (Declaration)
open Manifest.Declaration (flagsIn positionalIn subcommandsIn Declares AsksInScopes NoneFails
  RunsThrough)

/-- The flags that a scope has by itself: a help flag, if there is room for one. -/
def Config.helpFlags (config : Config) : List Flag :=
  if config.maxFlags = 0 then []
  else [.scalar "help" none .bool false "Print this help message"]

/-- The positional argument of a scope as a manifest describes it. -/
def Positional.ofSpec : Option PositionalSpec → Positional
  | none => {}
  | some spec => { name := some spec.name, description := spec.description }

/-- A scope holds its own help flag, then flags as a manifest describes them in order, and the
positional argument of the manifest; nothing was read into it. -/
structure Scope.Reflects (config : Config) (positional : Option PositionalSpec)
    (flags : List FlagSpec) (s : Scope) : Prop where
  flags : ∃ declared, s.flags = config.helpFlags ++ declared ∧
    List.Forall₂ FlagSpec.Describes flags declared
  positional_eq : s.positional = .ofSpec positional

theorem Scope.Reflects.full_iff {config : Config} {positional : Option PositionalSpec}
    {flags : List FlagSpec} {s : Scope} (h : s.Reflects config positional flags) :
    config.maxFlags ≤ s.flags.length ↔ config.maxFlags ≤ flags.length + 1 := by
  obtain ⟨declared, hflags, hdescribes⟩ := h.flags
  rw [hflags, List.length_append, hdescribes.length_eq]
  unfold Config.helpFlags
  split
  · omega
  · simp only [List.length_singleton]
    omega

theorem Scope.Reflects.addFlag {config : Config} {positional : Option PositionalSpec}
    {flags : List FlagSpec} {s : Scope} (h : s.Reflects config positional flags) {spec : FlagSpec}
    {f : Flag} (hf : spec.Describes f) :
    ({ s with flags := s.flags ++ [f] } : Scope).Reflects config positional (flags ++ [spec]) := by
  obtain ⟨declared, hflags, hdescribes⟩ := h.flags
  refine ⟨⟨declared ++ [f], ?_, ?_⟩, h.positional_eq⟩
  · simp only [hflags, List.append_assoc]
  · exact List.rel_append hdescribes (.cons hf .nil)

theorem Scope.Reflects.namePositional {config : Config} {positional : Option PositionalSpec}
    {flags : List FlagSpec} {s : Scope} (h : s.Reflects config positional flags)
    (spec : PositionalSpec) :
    (s.namePositional spec.name spec.description).Reflects config (some spec) flags where
  flags := h.flags
  positional_eq := by
    have hvalues : s.positional.values = [] := by
      rw [h.positional_eq]
      cases positional <;> rfl
    rw [Scope.positional_namePositional, hvalues]
    rfl

namespace Registry

/-- A registry is what declarations ask for: their subcommands in order, none of them selected, and
in every scope their flags and positional argument. -/
structure Reflects (config : Config) (ds : List Declaration) (r : Registry) : Prop where
  config_eq : r.config = config
  names : NamesAgree r
  subcommands_eq : r.subcommands.map (fun sub => (sub.name, sub.description, sub.isActive)) =
    (subcommandsIn ds).map fun spec => (spec.name, spec.description, false)
  scope : ∀ scope? s, r.Named scope? s →
    s.Reflects config (positionalIn scope? ds) (flagsIn scope? ds)
  asksInScopes : AsksInScopes ds

variable {r : Registry} {config : Config} {before : List Declaration}

theorem Reflects.map_name_eq (h : r.Reflects config before) :
    r.subcommands.map (·.name) = (subcommandsIn before).map (·.name) := by
  have heq := congrArg (List.map Prod.fst) h.subcommands_eq
  rwa [List.map_map, List.map_map] at heq

theorem Reflects.length_eq (h : r.Reflects config before) :
    r.subcommands.length = (subcommandsIn before).length := by
  simpa using congrArg List.length h.map_name_eq

/-- The scopes of the registry are those that are declared. -/
theorem Reflects.declares_iff (h : r.Reflects config before) {scope? : Option String} :
    Declares before scope? ↔ ∃ id s, r.scopeOf scope? = .ok id ∧ r.scope id = .ok s := by
  unfold Declares
  rw [← h.map_name_eq]
  constructor
  · intro hdeclared
    rcases hscope : r.scopeOf scope? with e | id
    · obtain ⟨name, rfl, hnone, _⟩ := scopeOf_eq_error h.names hscope
      obtain ⟨sub, hsub, hname⟩ := List.mem_map.mp (hdeclared name rfl)
      exact absurd hname (hnone sub hsub)
    · obtain ⟨s, hs⟩ := exists_scope_of_scopeOf h.names hscope
      exact ⟨id, s, rfl, hs⟩
  · rintro ⟨id, _, hid, _⟩ name rfl
    rcases (scopeOf_eq_ok_iff h.names).mp hid with ⟨hnone, _⟩ | ⟨slot, sub, hsub, hname, _⟩
    · cases hnone
    · rw [Option.some.inj hname]
      exact List.mem_map_of_mem (List.mem_of_getElem? hsub)

theorem Reflects.scope_of_scopeOf (h : r.Reflects config before) {scope? : Option String}
    {id : ScopeId} {s : Scope} (hid : r.scopeOf scope? = .ok id) (hs : r.scope id = .ok s) :
    s.Reflects config (positionalIn scope? before) (flagsIn scope? before) :=
  h.scope scope? s ((named_iff h.names).mpr ⟨id, hid, hs⟩)

/-! ## Replacing a scope -/

theorem scopeOf_setScope (r : Registry) (t : Scope) (id : ScopeId) (scope? : Option String) :
    (r.setScope t id).scopeOf scope? = r.scopeOf scope? := by
  cases scope? with
  | none => rfl
  | some name => simp only [scopeOf, slot?, names_setScope]

theorem scopeOf_inj (hnames : NamesAgree r) {a b : Option String} {id : ScopeId}
    (ha : r.scopeOf a = .ok id) (hb : r.scopeOf b = .ok id) : a = b := by
  rcases (scopeOf_eq_ok_iff hnames).mp ha with ⟨rfl, rfl⟩ | ⟨slot, sub, hsub, rfl, rfl⟩
  · rcases (scopeOf_eq_ok_iff hnames).mp hb with ⟨rfl, _⟩ | ⟨slot, sub, _, _, hid⟩
    · rfl
    · cases hid
  · rcases (scopeOf_eq_ok_iff hnames).mp hb with ⟨_, hid⟩ | ⟨slot', sub', hsub', rfl, hid⟩
    · cases hid
    · cases hid
      rw [Option.some.inj (hsub.symm.trans hsub')]

theorem map_heading_setScope (r : Registry) (t : Scope) (id : ScopeId) :
    (r.setScope t id).subcommands.map (fun sub => (sub.name, sub.description, sub.isActive)) =
      r.subcommands.map fun sub => (sub.name, sub.description, sub.isActive) := by
  cases id with
  | global => rfl
  | subcommand slot =>
    unfold setScope
    rw [map_modify_of_forall]
    intro sub
    rfl

/-- A declaration in a scope is reflected once its scope is. -/
theorem Reflects.setScope (h : r.Reflects config before) {scope? : Option String} {id : ScopeId}
    {s t : Scope} {d : Declaration} (hd : d.IsIn scope?) (hid : r.scopeOf scope? = .ok id)
    (hs : r.scope id = .ok s)
    (ht : t.Reflects config (positionalIn scope? (before ++ [d]))
      (flagsIn scope? (before ++ [d]))) :
    (r.setScope t id).Reflects config (before ++ [d]) := by
  have hnames := h.names.setScope t id
  refine ⟨(config_setScope r t id).trans h.config_eq, hnames, ?_, fun scope?' s' hnamed => ?_,
    fun name hname => ?_⟩
  · rw [map_heading_setScope, hd.subcommandsIn_eq, h.subcommands_eq]
  · obtain ⟨id', hid', hs'⟩ := (named_iff hnames).mp hnamed
    rw [scopeOf_setScope] at hid'
    rw [scope_setScope hs] at hs'
    split at hs'
    · rename_i heq
      subst heq
      obtain rfl := scopeOf_inj h.names hid hid'
      obtain rfl := Except.ok.inj hs'
      exact ht
    · rename_i hne
      have hother : scope?' ≠ scope? := by
        rintro rfl
        exact hne (Except.ok.inj (hid'.symm.trans hid))
      obtain ⟨hflags, hpositional⟩ := hd.asks_eq hother before
      rw [hflags, hpositional]
      exact h.scope_of_scopeOf hid' hs'
  · rw [hd.subcommandsIn_eq] at hname
    have hother : some name ≠ scope? := by
      rintro rfl
      exact hname (h.declares_iff.mpr ⟨id, s, hid, hs⟩ name rfl)
    obtain ⟨hflags, hpositional⟩ := hd.asks_eq hother before
    rw [hflags, hpositional]
    exact h.asksInScopes name hname

/-! ## The help flag of a new scope -/

/-- A scope without flags gets its help flag; beside it only the error slot and the list of help
flags may change. -/
theorem exists_declareHelp_eq {scope? : Option String} {id : ScopeId} {s : Scope}
    (hid : r.scopeOf scope? = .ok id) (hs : r.scope id = .ok s) (hempty : s.flags = []) :
    ∃ errors help, r.declareHelp scope? =
      { r.setScope { s with flags := r.config.helpFlags } id with
        errors := errors, helpFlags := help } := by
  unfold Config.helpFlags
  by_cases hmax : r.config.maxFlags = 0
  · have hscope : ({ s with flags := [] } : Scope) = s := by rw [← hempty]
    rw [declareHelp_of_full hid hs (by omega), if_pos hmax, hscope, setScope_self hs]
    exact ⟨_, _, rfl⟩
  · have hroom : s.flags.length < r.config.maxFlags := by
      rw [hempty, List.length_nil]
      omega
    rw [declareHelp_of_room hid hs hroom, if_neg hmax, hempty]
    exact ⟨_, _, rfl⟩

theorem reflects_start (id : Nat) (name description : String) (config : Config) :
    (start id name description config).Reflects config [] := by
  let fresh : Registry := {
    id := id
    name := nonEmpty? name
    description := nonEmpty? description
    config := config }
  have hid : fresh.scopeOf none = .ok .global := rfl
  obtain ⟨errors, help, heq⟩ := exists_declareHelp_eq hid rfl rfl
  have hstart : start id name description config =
      { fresh.setScope { flags := config.helpFlags } .global with
        errors := errors, helpFlags := help } := heq
  have hnames := (Reachable.start id name description config).names_agree
  rw [hstart] at hnames ⊢
  refine ⟨rfl, hnames, rfl, fun scope? s hnamed => ?_, fun _ _ => ⟨rfl, rfl⟩⟩
  cases scope? with
  | none =>
    obtain rfl : ({ flags := config.helpFlags } : Scope) = s := hnamed
    exact ⟨⟨[], (List.append_nil _).symm, .nil⟩, rfl⟩
  | some sub =>
    obtain ⟨_, hmem, _⟩ := hnamed
    cases hmem

/-! ## One declaration -/

theorem Reflects.exists_addFlag_eq_error (h : r.Reflects config before) {scope? : Option String}
    {spec : FlagSpec} {f : Flag} (hf : spec.Describes f)
    (hfails : spec.isNamed = false ∨ ¬ Declares before scope? ∨
      config.maxFlags ≤ (flagsIn scope? before).length + 1) :
    ∃ e, r.addFlag f scope? = .error e := by
  cases hnamed : f.isNamed with
  | false =>
    unfold addFlag
    rw [hnamed]
    exact ⟨_, rfl⟩
  | true =>
    rcases hid : r.scopeOf scope? with e | id
    · unfold addFlag
      rw [hnamed, hid]
      exact ⟨e, rfl⟩
    · obtain ⟨s, hs⟩ := exists_scope_of_scopeOf h.names hid
      have hfull : config.maxFlags ≤ s.flags.length := by
        rw [(h.scope_of_scopeOf hid hs).full_iff]
        rcases hfails with hno | hno | hfull
        · rw [← hf.isNamed_eq, hnamed] at hno
          cases hno
        · exact absurd (h.declares_iff.mpr ⟨id, s, hid, hs⟩) hno
        · exact hfull
      rw [addFlag_of_named hnamed hid hs, Scope.addFlag, h.config_eq, if_pos hfull]
      exact ⟨_, rfl⟩

theorem Reflects.exists_addFlag_eq_ok (h : r.Reflects config before) {scope? : Option String}
    {spec : FlagSpec} {f : Flag} (hf : spec.Describes f) (hnamed : spec.isNamed = true)
    (hdeclared : Declares before scope?)
    (hroom : (flagsIn scope? before).length + 1 < config.maxFlags) :
    ∃ r' place, r.addFlag f scope? = .ok (r', place) ∧
      r'.Reflects config (before ++ [.flag scope? spec]) := by
  obtain ⟨id, s, hid, hs⟩ := h.declares_iff.mp hdeclared
  have hreflects := h.scope_of_scopeOf hid hs
  have hspace : ¬ config.maxFlags ≤ s.flags.length := by
    rw [hreflects.full_iff]
    omega
  rw [← hf.isNamed_eq] at hnamed
  rw [addFlag_of_named hnamed hid hs, Scope.addFlag, h.config_eq, if_neg hspace]
  refine ⟨_, _, rfl, h.setScope rfl hid hs ?_⟩
  have hflags : flagsIn scope? (before ++ [.flag scope? spec]) =
      flagsIn scope? before ++ [spec] := by
    simp [flagsIn, Declaration.flagIn?]
  have hpositional : positionalIn scope? (before ++ [.flag scope? spec]) =
      positionalIn scope? before := by
    simp [positionalIn, Declaration.positionalIn?]
  rw [hflags, hpositional]
  exact hreflects.addFlag hf

theorem Reflects.exists_addPositional_eq_ok (h : r.Reflects config before)
    {scope? : Option String} (spec : PositionalSpec) (hdeclared : Declares before scope?) :
    ∃ r' handle, r.addPositional spec.name spec.description scope? = .ok (r', handle) ∧
      r'.Reflects config (before ++ [.positional scope? spec]) := by
  obtain ⟨id, s, hid, hs⟩ := h.declares_iff.mp hdeclared
  have hreflects := h.scope_of_scopeOf hid hs
  unfold addPositional
  rw [hid]
  simp only [bind, Except.bind, hs]
  refine ⟨_, _, rfl, h.setScope rfl hid hs ?_⟩
  have hflags : flagsIn scope? (before ++ [.positional scope? spec]) = flagsIn scope? before := by
    simp [flagsIn, Declaration.flagIn?]
  have hpositional : positionalIn scope? (before ++ [.positional scope? spec]) = some spec := by
    simp [positionalIn, Declaration.positionalIn?]
  rw [hflags, hpositional]
  exact hreflects.namePositional spec

theorem modify_length_append {α : Type} (f : α → α) (l : List α) (a : α) :
    (l ++ [a]).modify l.length f = l ++ [f a] := by
  induction l with
  | nil => rfl
  | cons b l ih => simp [ih]

/-- A subcommand that is not refused has a help flag and nothing else. -/
theorem exists_declareSubcommand_eq (hnames : NamesAgree r) {name : String} (description : String)
    (hroom : r.subcommands.length < r.config.maxSubcommands)
    (hfresh : ∀ sub ∈ r.subcommands, sub.name ≠ name) :
    ∃ r' handle, r.declareSubcommand name description = (r', .ok handle) ∧
      r'.config = r.config ∧ NamesAgree r' ∧ r'.global = r.global ∧
      r'.subcommands = r.subcommands ++ [{
        name := name, description := description, scope := { flags := r.config.helpFlags } }] := by
  rcases r.declareSubcommand_cases name description with ⟨hfull, _⟩ | ⟨_, ⟨hinsert, _⟩ |
    ⟨slot, names, hinsert, hslot, _⟩ | ⟨names, hinsert, heq⟩⟩
  · omega
  · obtain ⟨sub, hsub, hname⟩ := (insert?_eq_none_iff hnames).mp hinsert
    exact absurd hname (hfresh sub hsub)
  · exact absurd (hnames.slot_eq_length hinsert) hslot
  · let added : Registry := { r with
      names := names
      subcommands := r.subcommands ++ [{ name := name, description := description }] }
    have hadded : NamesAgree added := hnames.change (.subcommand hroom hinsert)
    obtain ⟨hid, hs⟩ := scopeOf_append_subcommand hnames hroom hinsert
    obtain ⟨errors, help, hhelp⟩ := exists_declareHelp_eq hid hs rfl
    exact ⟨_, _, heq.trans (congrArg (·, _) hhelp), config_setScope _ _ _, hadded.setScope _ _, rfl,
      modify_length_append _ _ _⟩

/-- A subcommand is reflected. Its scope asks for nothing yet, since nothing was asked for under a
name that is not declared. -/
theorem Reflects.exists_declareSubcommand_eq_ok (h : r.Reflects config before)
    (spec : SubcommandSpec) (hroom : (subcommandsIn before).length < config.maxSubcommands)
    (hfresh : spec.name ∉ (subcommandsIn before).map (·.name)) :
    ∃ r' handle, r.declareSubcommand spec.name spec.description = (r', .ok handle) ∧
      r'.Reflects config (before ++ [.subcommand spec]) := by
  have hspace : r.subcommands.length < r.config.maxSubcommands := by
    rwa [h.config_eq, h.length_eq]
  have hnew : ∀ sub ∈ r.subcommands, sub.name ≠ spec.name := by
    rintro sub hsub hname
    rw [← h.map_name_eq, ← hname] at hfresh
    exact hfresh (List.mem_map_of_mem hsub)
  obtain ⟨r', handle, heq, hconfig, hnames, hglobal, hsubcommands⟩ :=
    exists_declareSubcommand_eq h.names spec.description hspace hnew
  have hasked : subcommandsIn (before ++ [.subcommand spec]) = subcommandsIn before ++ [spec] := by
    simp [subcommandsIn, Declaration.subcommand?]
  refine ⟨r', handle, heq, hconfig.trans h.config_eq, hnames, ?_, fun scope? s hnamed => ?_,
    fun name hname => ?_⟩
  · rw [hsubcommands, hasked, List.map_append, List.map_append, h.subcommands_eq]
    rfl
  · obtain ⟨hflags, hpositional⟩ := Declaration.asks_subcommand_eq scope? before spec
    rw [hflags, hpositional]
    cases scope? with
    | none => exact h.scope none s (hglobal.symm.trans hnamed)
    | some name =>
      obtain ⟨sub, hmem, hname, hscope⟩ := hnamed
      rw [hsubcommands, List.mem_append, List.mem_singleton] at hmem
      rcases hmem with hmem | rfl
      · exact h.scope (some name) s ⟨sub, hmem, hname, hscope⟩
      · obtain rfl := hname
        obtain rfl := hscope
        obtain ⟨hflags, hpositional⟩ := h.asksInScopes spec.name hfresh
        rw [hflags, hpositional, h.config_eq]
        exact ⟨⟨[], (List.append_nil _).symm, .nil⟩, rfl⟩
  · obtain ⟨hflags, hpositional⟩ := Declaration.asks_subcommand_eq (some name) before spec
    rw [hflags, hpositional]
    rw [hasked, List.map_append, List.mem_append, not_or] at hname
    exact h.asksInScopes name hname.1

/-- A declaration that does not fail and has room is made, and then it is reflected. -/
theorem Reflects.make (h : r.Reflects config before) {d : Declaration}
    (hd : ¬ d.Fails config before) (hroom : ¬ d.Overflows config) :
    ∃ r', d.make r = .ok r' ∧ r'.Reflects config (before ++ [d]) := by
  cases d with
  | positional scope? spec =>
    obtain ⟨r', handle, heq, hr'⟩ := h.exists_addPositional_eq_ok spec (not_not.mp hd)
    have hfits : r.config.PositionalsFit := h.config_eq ▸ not_not.mp hroom
    exact ⟨r', Declaration.make_positional_of_fits hfits heq, hr'⟩
  | flag scope? spec =>
    simp only [Declaration.Fails, not_or, not_not, Bool.not_eq_false, Nat.not_le] at hd
    obtain ⟨hfits, hnamed, hdeclared, hroom⟩ := hd
    obtain ⟨f, hflag⟩ := FlagSpec.exists_flag_iff.mpr hfits
    obtain ⟨r', place, heq, hr'⟩ :=
      h.exists_addFlag_eq_ok (FlagSpec.flag_eq_ok hflag) hnamed hdeclared hroom
    refine ⟨r', ?_, hr'⟩
    rw [Declaration.make_flag, hflag]
    simp only [heq]
    rfl
  | subcommand spec =>
    simp only [Declaration.Fails, not_or, Nat.not_le] at hd
    obtain ⟨r', handle, heq, hr'⟩ := h.exists_declareSubcommand_eq_ok spec hd.1 hd.2
    refine ⟨r', ?_, hr'⟩
    rw [Declaration.make_subcommand, heq]
    rfl

/-- A declaration that does not fail but asks for too much room stops the program. -/
theorem Reflects.make_eq_stopped (h : r.Reflects config before) {d : Declaration}
    (hd : ¬ d.Fails config before) (hroom : d.Overflows config) :
    d.make r = .error (.stopped .overflow) := by
  cases d with
  | positional scope? spec =>
    obtain ⟨r', handle, heq, _⟩ := h.exists_addPositional_eq_ok spec (not_not.mp hd)
    have hfits : ¬ r.config.PositionalsFit := h.config_eq ▸ hroom
    exact Declaration.make_positional_of_not_fits hfits heq
  | flag scope? spec => exact hroom.elim
  | subcommand spec => exact hroom.elim

/-- A declaration that fails is an error. -/
theorem Reflects.make_eq_refused (h : r.Reflects config before) {d : Declaration}
    (hd : d.Fails config before) : ∃ e, d.make r = .error (.refused e) := by
  cases d with
  | positional scope? spec =>
    have hscope : ∃ e, r.scopeOf scope? = .error e := by
      rcases hid : r.scopeOf scope? with e | id
      · exact ⟨e, rfl⟩
      · obtain ⟨s, hs⟩ := exists_scope_of_scopeOf h.names hid
        exact absurd (h.declares_iff.mpr ⟨id, s, hid, hs⟩) hd
    obtain ⟨e, hscope⟩ := hscope
    have hadd : r.addPositional spec.name spec.description scope? = .error e := by
      rw [addPositional, hscope]
      rfl
    exact ⟨_, Declaration.make_positional_of_error hadd⟩
  | flag scope? spec =>
    rw [Declaration.make_flag]
    rcases hflag : spec.flag with reason | f
    · exact ⟨_, rfl⟩
    · have hfails := hd.resolve_left (not_not.mpr (FlagSpec.exists_flag_iff.mp ⟨f, hflag⟩))
      obtain ⟨e, heq⟩ := h.exists_addFlag_eq_error (FlagSpec.flag_eq_ok hflag) hfails
      simp only [heq]
      exact ⟨_, rfl⟩
  | subcommand spec =>
    rw [Declaration.make_subcommand]
    rcases r.declareSubcommand_cases spec.name spec.description with ⟨_, heq⟩ | ⟨hroom, ⟨_, heq⟩ |
      ⟨slot, names, _, _, heq⟩ | ⟨names, hinsert, _⟩⟩
    · rw [heq]
      exact ⟨_, rfl⟩
    · rw [heq]
      exact ⟨_, rfl⟩
    · rw [heq]
      exact ⟨_, rfl⟩
    · exfalso
      rw [h.config_eq, h.length_eq] at hroom
      rcases hd with hfull | htaken
      · omega
      · rw [← h.map_name_eq] at htaken
        obtain ⟨sub, hsub, hname⟩ := List.mem_map.mp htaken
        rw [(insert?_eq_none_iff h.names).mpr ⟨sub, hsub, hname⟩] at hinsert
        cases hinsert

/-! ## A script -/

/-- A script whose declarations all can be made is run to its end. -/
theorem Reflects.foldlM_eq_ok (h : r.Reflects config before) {ds : List Declaration}
    (hds : RunsThrough config before ds) :
    ∃ r', ds.foldlM Declaration.make r = .ok r' ∧ r'.Reflects config (before ++ ds) := by
  induction ds generalizing before r with
  | nil => exact ⟨r, rfl, by rwa [List.append_nil]⟩
  | cons d ds ih =>
    obtain ⟨⟨hd, hrest⟩, hroom⟩ := hds
    obtain ⟨hroom, hrooms⟩ := List.forall_mem_cons.mp hroom
    obtain ⟨r₁, hmake, hr₁⟩ := h.make hd hroom
    obtain ⟨r', hfold, hr'⟩ := ih hr₁ ⟨hrest, hrooms⟩
    refine ⟨r', ?_, ?_⟩
    · rw [List.foldlM_cons, hmake]
      exact hfold
    · rwa [List.append_assoc] at hr'

/-- A script that is not run to its end ends at the first declaration that fails, which its error
names, or that asks for too much room. -/
theorem Reflects.foldlM_eq_error (h : r.Reflects config before) {ds : List Declaration}
    (hds : ¬ RunsThrough config before ds) :
    ∃ front d back, ds = front ++ d :: back ∧ RunsThrough config before front ∧
      ((d.Fails config (before ++ front) ∧
          ∃ e, ds.foldlM Declaration.make r = .error (.refused e) ∧ e.context = d.title) ∨
        ¬ d.Fails config (before ++ front) ∧ d.Overflows config ∧
          ds.foldlM Declaration.make r = .error (.stopped .overflow)) := by
  obtain ⟨front, d, back, rfl, hfront, hd⟩ := Declaration.exists_first_of_not_runsThrough hds
  obtain ⟨r₁, hfold, hr₁⟩ := h.foldlM_eq_ok hfront
  have hhalts : ∀ e, d.make r₁ = .error e →
      (front ++ d :: back).foldlM Declaration.make r = .error e := by
    intro e hmake
    rw [List.foldlM_append, hfold]
    show (d :: back).foldlM Declaration.make r₁ = _
    rw [List.foldlM_cons, hmake]
    rfl
  refine ⟨front, d, back, rfl, hfront, ?_⟩
  rcases hd with hfails | ⟨hfails, hroom⟩
  · obtain ⟨e, hmake⟩ := hr₁.make_eq_refused hfails
    exact .inl ⟨hfails, e, hhalts _ hmake, Declaration.context_of_make_eq_error hmake⟩
  · exact .inr ⟨hfails, hroom, hhalts _ (hr₁.make_eq_stopped hfails hroom)⟩

end Registry

end CommandLine

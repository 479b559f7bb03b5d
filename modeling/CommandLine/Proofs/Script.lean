import CommandLine.Proofs.FlagSpec
import CommandLine.Proofs.Room

/-!
# Manifests as scripts

The registry of a manifest is built by making the declarations of the manifest one after another
(`build_eq_foldlM`). What a script of declarations asks for in each scope, which of them fails, and
which of them asks for more room than there can be, is said here from the declarations alone,
without a registry.
-/

namespace CommandLine

namespace Manifest

/-! ## The declarations of a manifest -/

/-- A declaration that a manifest asks for, in the scope of a name. -/
inductive Declaration where
  | positional (scope? : Option String) (spec : PositionalSpec)
  | flag (scope? : Option String) (spec : FlagSpec)
  | subcommand (spec : SubcommandSpec)

namespace Declaration

/-- Makes a declaration. -/
def make (r : Registry) : Declaration → Except Unbuilt Registry
  | .positional scope? spec => declarePositional r scope? (some spec)
  | .flag scope? spec => declareFlag r scope? spec
  | .subcommand spec =>
    built (.subcommand spec.name) (r.declareSubcommand spec.name spec.description)

theorem make_positional_of_error {r : Registry} {scope? : Option String} {spec : PositionalSpec}
    {e : Error} (h : r.addPositional spec.name spec.description scope? = .error e) :
    make r (.positional scope? spec) = .error (.refused (.positional spec.name e)) := by
  unfold make declarePositional
  simp only [Registry.declarePositionalWithRoom_of_error h]
  unfold Registry.declarePositional
  rw [h]
  rfl

theorem make_positional_of_fits {r r' : Registry} {scope? : Option String} {spec : PositionalSpec}
    {handle : PositionalHandle} (hfits : r.config.PositionalsFit)
    (h : r.addPositional spec.name spec.description scope? = .ok (r', handle)) :
    make r (.positional scope? spec) = .ok r' := by
  unfold make declarePositional
  simp only [Registry.declarePositionalWithRoom_of_fits hfits]
  unfold Registry.declarePositional
  rw [h]
  rfl

theorem make_positional_of_not_fits {r r' : Registry} {scope? : Option String}
    {spec : PositionalSpec} {handle : PositionalHandle} (hfits : ¬ r.config.PositionalsFit)
    (h : r.addPositional spec.name spec.description scope? = .ok (r', handle)) :
    make r (.positional scope? spec) = .error (.stopped .overflow) := by
  unfold make declarePositional
  simp only [Registry.declarePositionalWithRoom_of_not_fits hfits h]

theorem make_flag (r : Registry) (scope? : Option String) (spec : FlagSpec) :
    make r (.flag scope? spec) =
      match spec.flag with
      | .error reason => .error (.refused (.flag spec.label (.default reason)))
      | .ok f => ((r.addFlag f scope?).mapError fun e =>
        .refused (.flag spec.label (.refused e))).map Prod.fst :=
  declareFlag_eq r scope? spec

theorem make_subcommand (r : Registry) (spec : SubcommandSpec) :
    make r (.subcommand spec) =
      built (.subcommand spec.name) (r.declareSubcommand spec.name spec.description) := rfl

/-- What is said first when the declaration fails. -/
def title : Declaration → String
  | .positional _ spec => "Failed to declare main argument `" ++ spec.name ++ "`"
  | .flag _ spec => "Failed to declare flag " ++ spec.label
  | .subcommand spec => "Failed to declare subcommand `" ++ spec.name ++ "`"

/-- The declarations of a scope: the positional argument, and then the flags. -/
def ofScope (scope? : Option String) (positional : Option PositionalSpec)
    (flags : List FlagSpec) : List Declaration :=
  (positional.map (.positional scope?)).toList ++ flags.map (.flag scope?)

/-- A subcommand and the declarations of its scope. -/
def ofSubcommand (spec : SubcommandSpec) : List Declaration :=
  .subcommand spec :: ofScope (some spec.name) spec.positional spec.flags

/-- The error of a declaration names it. -/
theorem context_of_make_eq_error {r : Registry} {d : Declaration} {e : BuildError}
    (h : d.make r = .error (.refused e)) : e.context = d.title := by
  cases d with
  | positional scope? spec =>
    cases hadd : r.addPositional spec.name spec.description scope? with
    | error reason =>
      rw [make_positional_of_error hadd] at h
      cases h
      rfl
    | ok added =>
      by_cases hfits : r.config.PositionalsFit
      · rw [make_positional_of_fits hfits hadd] at h
        cases h
      · rw [make_positional_of_not_fits hfits hadd] at h
        cases h
  | flag scope? spec =>
    rw [make_flag] at h
    cases hflag : spec.flag with
    | error reason =>
      rw [hflag] at h
      cases h
      rfl
    | ok f =>
      simp only [hflag] at h
      cases hadd : r.addFlag f scope? with
      | error reason =>
        rw [hadd] at h
        cases h
        rfl
      | ok added =>
        rw [hadd] at h
        cases h
  | subcommand spec =>
    rw [make_subcommand] at h
    rcases hadd : r.declareSubcommand spec.name spec.description with ⟨r', reason | handle⟩
    · rw [hadd] at h
      cases h
      rfl
    · rw [hadd] at h
      cases h

theorem foldlM_ofScope (r : Registry) (scope? : Option String)
    (positional : Option PositionalSpec) (flags : List FlagSpec) :
    (ofScope scope? positional flags).foldlM make r = declareScope r scope? positional flags := by
  unfold ofScope declareScope
  rw [List.foldlM_append]
  simp only [List.foldlM_map, make]
  cases positional with
  | none => rfl
  | some spec => simp [make]

theorem foldlM_flatMap_ofSubcommand (r : Registry) (specs : List SubcommandSpec) :
    (specs.flatMap ofSubcommand).foldlM make r = specs.foldlM declareSubcommand r := by
  induction specs generalizing r with
  | nil => rfl
  | cons spec specs ih =>
    have hspec : (ofSubcommand spec).foldlM make r = declareSubcommand r spec := by
      unfold ofSubcommand declareSubcommand
      simp only [List.foldlM_cons, foldlM_ofScope]
      rfl
    rw [List.flatMap_cons, List.foldlM_append, List.foldlM_cons, hspec]
    simp only [ih]

end Declaration

/-- All declarations of a manifest in order: those of the global scope, and then each subcommand
with those of its scope. -/
def declarations (m : Manifest) : List Declaration :=
  Declaration.ofScope none m.positional m.flags ++ m.subcommands.flatMap Declaration.ofSubcommand

theorem build_eq_foldlM {m : Manifest} (h : m.config.TableFits) (id : Nat) :
    m.build id =
      m.declarations.foldlM Declaration.make (.start id m.name m.description m.config) := by
  unfold build declarations
  rw [List.foldlM_append, Declaration.foldlM_ofScope, Registry.startWithRoom_of_fits _ _ _ h]
  simp only [Declaration.foldlM_flatMap_ofSubcommand]
  rfl

theorem build_of_not_tableFits {m : Manifest} (h : ¬ m.config.TableFits) (id : Nat) :
    m.build id = .error (.stopped .overflow) := by
  unfold build
  rw [Registry.startWithRoom_of_not_fits _ _ _ h]
  rfl

namespace Declaration

/-! ## What declarations ask for -/

/-- The flag that a declaration asks for in a scope. -/
def flagIn? (scope? : Option String) : Declaration → Option FlagSpec
  | .flag scope?' spec => if scope?' = scope? then some spec else none
  | _ => none

/-- The positional argument that a declaration asks for in a scope. -/
def positionalIn? (scope? : Option String) : Declaration → Option PositionalSpec
  | .positional scope?' spec => if scope?' = scope? then some spec else none
  | _ => none

/-- The subcommand that a declaration asks for. -/
def subcommand? : Declaration → Option SubcommandSpec
  | .subcommand spec => some spec
  | _ => none

/-- The flags that declarations ask for in a scope, in order. -/
def flagsIn (scope? : Option String) (ds : List Declaration) : List FlagSpec :=
  ds.filterMap (flagIn? scope?)

/-- The positional argument that declarations ask for in a scope; the last one counts. -/
def positionalIn (scope? : Option String) (ds : List Declaration) : Option PositionalSpec :=
  (ds.filterMap (positionalIn? scope?)).getLast?

/-- The subcommands that declarations ask for, in order. -/
def subcommandsIn (ds : List Declaration) : List SubcommandSpec :=
  ds.filterMap subcommand?

/-- Declarations ask for the scope of a name. -/
def Declares (ds : List Declaration) (scope? : Option String) : Prop :=
  ∀ name, scope? = some name → name ∈ (subcommandsIn ds).map (·.name)

/-- Nothing is asked for in a scope that is not declared. -/
def AsksInScopes (ds : List Declaration) : Prop :=
  ∀ name, name ∉ (subcommandsIn ds).map (·.name) →
    flagsIn (some name) ds = [] ∧ positionalIn (some name) ds = none

/-- A declaration fails after others. A positional argument fails if its scope is not declared. A
flag fails if its default does not fit, if it has no name, if its scope is not declared, or if the
flags before it and the help flag leave no room. A subcommand fails if there are too many before it
or if one of them has its name. -/
def Fails (config : Config) (before : List Declaration) : Declaration → Prop
  | .positional scope? _ => ¬ Declares before scope?
  | .flag scope? spec =>
    ¬ spec.DefaultFits ∨ spec.isNamed = false ∨ ¬ Declares before scope? ∨
      config.maxFlags ≤ (flagsIn scope? before).length + 1
  | .subcommand spec =>
    config.maxSubcommands ≤ (subcommandsIn before).length ∨
      spec.name ∈ (subcommandsIn before).map (·.name)

/-- None of the declarations fails after those before it. -/
def NoneFails (config : Config) (before : List Declaration) : List Declaration → Prop
  | [] => True
  | d :: ds => ¬ d.Fails config before ∧ NoneFails config (before ++ [d]) ds

theorem noneFails_append {config : Config} {before ds ds' : List Declaration} :
    NoneFails config before (ds ++ ds') ↔
      NoneFails config before ds ∧ NoneFails config (before ++ ds) ds' := by
  induction ds generalizing before with
  | nil => simp [NoneFails]
  | cons d ds ih => simp [NoneFails, ih, and_assoc]

/-- A declaration asks for more room than there can be: only positional arguments ask for any. -/
def Overflows (config : Config) : Declaration → Prop
  | .positional _ _ => ¬ config.PositionalsFit
  | .flag _ _ => False
  | .subcommand _ => False

/-- None of the declarations fails after those before it, or asks for more room than there can
be. -/
def RunsThrough (config : Config) (before ds : List Declaration) : Prop :=
  NoneFails config before ds ∧ ∀ d ∈ ds, ¬ d.Overflows config

/-- If declarations do not run through, then one of them is the first that fails or overflows. -/
theorem exists_first_of_not_runsThrough {config : Config} {before ds : List Declaration}
    (h : ¬ RunsThrough config before ds) :
    ∃ front d back, ds = front ++ d :: back ∧ RunsThrough config before front ∧
      (d.Fails config (before ++ front) ∨
        ¬ d.Fails config (before ++ front) ∧ d.Overflows config) := by
  induction ds generalizing before with
  | nil => exact absurd ⟨trivial, by simp⟩ h
  | cons d ds ih =>
    by_cases hends : d.Fails config before ∨ ¬ d.Fails config before ∧ d.Overflows config
    · exact ⟨[], d, ds, rfl, ⟨trivial, by simp⟩, by rwa [List.append_nil]⟩
    · have hd : ¬ d.Fails config before := fun hd => hends (.inl hd)
      have hroom : ¬ d.Overflows config := fun hroom => hends (.inr ⟨hd, hroom⟩)
      have hmore : ∀ ds', RunsThrough config (before ++ [d]) ds' →
          RunsThrough config before (d :: ds') := fun ds' hds' =>
        ⟨⟨hd, hds'.1⟩, List.forall_mem_cons.mpr ⟨hroom, hds'.2⟩⟩
      obtain ⟨front, d', back, rfl, hfront, hd'⟩ := ih fun hds => h (hmore ds hds)
      refine ⟨d :: front, d', back, rfl, hmore front hfront, ?_⟩
      rwa [List.append_assoc] at hd'

theorem flagsIn_append (scope? : Option String) (ds ds' : List Declaration) :
    flagsIn scope? (ds ++ ds') = flagsIn scope? ds ++ flagsIn scope? ds' :=
  List.filterMap_append

theorem subcommandsIn_append (ds ds' : List Declaration) :
    subcommandsIn (ds ++ ds') = subcommandsIn ds ++ subcommandsIn ds' :=
  List.filterMap_append

theorem positionalIn_append (scope? : Option String) (ds ds' : List Declaration) :
    positionalIn scope? (ds ++ ds') = (positionalIn scope? ds').or (positionalIn scope? ds) := by
  unfold positionalIn
  rw [List.filterMap_append, List.getLast?_append]

/-- A declaration changes what is asked for in one scope only. -/
def IsIn (scope? : Option String) : Declaration → Prop
  | .positional scope?' _ => scope?' = scope?
  | .flag scope?' _ => scope?' = scope?
  | .subcommand _ => False

theorem IsIn.subcommandsIn_eq {scope? : Option String} {d : Declaration} (h : d.IsIn scope?)
    (before : List Declaration) : subcommandsIn (before ++ [d]) = subcommandsIn before := by
  cases d with
  | positional scope?' spec => simp [subcommandsIn, subcommand?]
  | flag scope?' spec => simp [subcommandsIn, subcommand?]
  | subcommand spec => exact h.elim

theorem IsIn.asks_eq {scope? scope?' : Option String} {d : Declaration} (h : d.IsIn scope?)
    (hne : scope?' ≠ scope?) (before : List Declaration) :
    flagsIn scope?' (before ++ [d]) = flagsIn scope?' before ∧
      positionalIn scope?' (before ++ [d]) = positionalIn scope?' before := by
  cases d with
  | positional scope?'' spec =>
    obtain rfl : scope?'' = scope? := h
    simp [flagsIn, positionalIn, flagIn?, positionalIn?, Ne.symm hne]
  | flag scope?'' spec =>
    obtain rfl : scope?'' = scope? := h
    simp [flagsIn, positionalIn, flagIn?, positionalIn?, Ne.symm hne]
  | subcommand spec => exact h.elim

theorem asks_subcommand_eq (scope? : Option String) (before : List Declaration)
    (spec : SubcommandSpec) :
    flagsIn scope? (before ++ [.subcommand spec]) = flagsIn scope? before ∧
      positionalIn scope? (before ++ [.subcommand spec]) = positionalIn scope? before := by
  simp [flagsIn, positionalIn, flagIn?, positionalIn?]

end Declaration

end Manifest

end CommandLine

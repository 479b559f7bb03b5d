import CommandLine.Proofs.Reflection

/-!
# Building the registry of a manifest

1. What the script of a manifest asks for in each scope is what the manifest says there
   (`asks_global`, `asks_subcommand`).
2. `Manifest.Buildable` lists what a manifest needs. For a valid manifest it says that no
   declaration of its script fails (`noneFails_declarations_iff`).
3. A manifest also needs room (`Manifest.HasRoom`). Without it the program is stopped, unless a
   declaration fails before the room is asked for (`build_eq_ok_iff`, `build_eq_stopped_iff`).
4. `Manifest.MirroredBy` says what the registry of a manifest is like. Building mirrors the manifest
   in this sense, or ends at the first declaration that fails or stops (`build_mirrors_or_stops`).
-/

namespace CommandLine.Manifest

namespace Declaration

/-! ## What a manifest asks for -/

theorem subcommandsIn_ofScope (scope? : Option String) (positional : Option PositionalSpec)
    (flags : List FlagSpec) : subcommandsIn (ofScope scope? positional flags) = [] := by
  unfold subcommandsIn ofScope
  rw [List.filterMap_append, List.filterMap_map]
  cases positional <;> simp [subcommand?, Function.comp_def]

theorem flagsIn_ofScope (scope? scope?' : Option String) (positional : Option PositionalSpec)
    (flags : List FlagSpec) :
    flagsIn scope? (ofScope scope?' positional flags) = if scope?' = scope? then flags else [] := by
  unfold flagsIn ofScope
  rw [List.filterMap_append, List.filterMap_map]
  split <;> rename_i h <;> cases positional <;> simp [flagIn?, Function.comp_def, h]

theorem positionalIn_ofScope (scope? scope?' : Option String) (positional : Option PositionalSpec)
    (flags : List FlagSpec) :
    positionalIn scope? (ofScope scope?' positional flags) =
      if scope?' = scope? then positional else none := by
  unfold positionalIn ofScope
  rw [List.filterMap_append, List.filterMap_map]
  split <;> rename_i h <;> cases positional <;> simp [positionalIn?, Function.comp_def, h]

theorem subcommandsIn_ofSubcommand (spec : SubcommandSpec) :
    subcommandsIn (ofSubcommand spec) = [spec] :=
  congrArg (spec :: ·) (subcommandsIn_ofScope _ _ _)

theorem flagsIn_ofSubcommand (scope? : Option String) (spec : SubcommandSpec) :
    flagsIn scope? (ofSubcommand spec) = if some spec.name = scope? then spec.flags else [] :=
  flagsIn_ofScope scope? (some spec.name) spec.positional spec.flags

theorem positionalIn_ofSubcommand (scope? : Option String) (spec : SubcommandSpec) :
    positionalIn scope? (ofSubcommand spec) =
      if some spec.name = scope? then spec.positional else none :=
  positionalIn_ofScope scope? (some spec.name) spec.positional spec.flags

theorem subcommandsIn_flatMap (specs : List SubcommandSpec) :
    subcommandsIn (specs.flatMap ofSubcommand) = specs := by
  induction specs with
  | nil => rfl
  | cons spec specs ih =>
    rw [List.flatMap_cons, subcommandsIn_append, subcommandsIn_ofSubcommand, ih]
    rfl

theorem Declares.append {ds : List Declaration} {scope? : Option String}
    (h : Declares ds scope?) (ds' : List Declaration) : Declares (ds ++ ds') scope? := by
  intro name hname
  rw [subcommandsIn_append, List.map_append]
  exact List.mem_append_left _ (h name hname)

theorem AsksInScopes.append {ds ds' : List Declaration} (h : AsksInScopes ds)
    (h' : AsksInScopes ds') : AsksInScopes (ds ++ ds') := by
  intro name hname
  rw [subcommandsIn_append, List.map_append, List.mem_append, not_or] at hname
  obtain ⟨hflags, hpositional⟩ := h name hname.1
  obtain ⟨hflags', hpositional'⟩ := h' name hname.2
  rw [flagsIn_append, positionalIn_append, hflags, hflags', hpositional, hpositional']
  exact ⟨rfl, rfl⟩

theorem asksInScopes_ofSubcommand (spec : SubcommandSpec) : AsksInScopes (ofSubcommand spec) := by
  intro name hname
  rw [subcommandsIn_ofSubcommand, List.map_singleton, List.mem_singleton] at hname
  have hne : ¬ some spec.name = some name := fun heq => hname (Option.some.inj heq).symm
  rw [flagsIn_ofSubcommand, positionalIn_ofSubcommand, if_neg hne, if_neg hne]
  exact ⟨rfl, rfl⟩

theorem asksInScopes_flatMap (specs : List SubcommandSpec) :
    AsksInScopes (specs.flatMap ofSubcommand) := by
  induction specs with
  | nil => exact fun _ _ => ⟨rfl, rfl⟩
  | cons spec specs ih => exact (asksInScopes_ofSubcommand spec).append ih

theorem asks_global_flatMap (specs : List SubcommandSpec) :
    flagsIn none (specs.flatMap ofSubcommand) = [] ∧
      positionalIn none (specs.flatMap ofSubcommand) = none := by
  induction specs with
  | nil => exact ⟨rfl, rfl⟩
  | cons spec specs ih =>
    rw [List.flatMap_cons, flagsIn_append, positionalIn_append, ih.1, ih.2, flagsIn_ofSubcommand,
      positionalIn_ofSubcommand]
    exact ⟨rfl, rfl⟩

theorem asks_flatMap {specs : List SubcommandSpec} (hnodup : (specs.map (·.name)).Nodup)
    {spec : SubcommandSpec} (hspec : spec ∈ specs) :
    flagsIn (some spec.name) (specs.flatMap ofSubcommand) = spec.flags ∧
      positionalIn (some spec.name) (specs.flatMap ofSubcommand) = spec.positional := by
  obtain ⟨front, back, rfl⟩ := List.append_of_mem hspec
  -- no subcommand before or after it has its name
  rw [List.map_append, List.map_cons, List.nodup_middle, List.nodup_cons, List.mem_append,
    not_or] at hnodup
  obtain ⟨⟨hfront, hback⟩, _⟩ := hnodup
  have hasks := asksInScopes_flatMap front spec.name (by rwa [subcommandsIn_flatMap])
  have hasks' := asksInScopes_flatMap back spec.name (by rwa [subcommandsIn_flatMap])
  rw [List.flatMap_append, List.flatMap_cons]
  simp only [flagsIn_append, positionalIn_append, hasks, hasks', flagsIn_ofSubcommand,
    positionalIn_ofSubcommand, if_true]
  simp

end Declaration

open Declaration

theorem subcommandsIn_declarations (m : Manifest) :
    subcommandsIn m.declarations = m.subcommands := by
  unfold declarations
  rw [subcommandsIn_append, subcommandsIn_ofScope, subcommandsIn_flatMap]
  rfl

theorem asks_global (m : Manifest) :
    flagsIn none m.declarations = m.flags ∧ positionalIn none m.declarations = m.positional := by
  obtain ⟨hflags, hpositional⟩ := asks_global_flatMap m.subcommands
  unfold declarations
  rw [flagsIn_append, positionalIn_append, hflags, hpositional, flagsIn_ofScope,
    positionalIn_ofScope]
  simp

theorem asks_subcommand {m : Manifest} (hnodup : (m.subcommands.map (·.name)).Nodup)
    {spec : SubcommandSpec} (hspec : spec ∈ m.subcommands) :
    flagsIn (some spec.name) m.declarations = spec.flags ∧
      positionalIn (some spec.name) m.declarations = spec.positional := by
  obtain ⟨hflags, hpositional⟩ := asks_flatMap hnodup hspec
  unfold declarations
  rw [flagsIn_append, positionalIn_append, hflags, hpositional, flagsIn_ofScope,
    positionalIn_ofScope]
  simp

/-! ## Which manifests can be built -/

/-- The flags of a scope can be declared: each default fits, and together with the help flag they
stay within the limit, unless there are none. -/
structure FlagsFit (config : Config) (flags : List FlagSpec) : Prop where
  defaults : ∀ spec ∈ flags, spec.DefaultFits
  room : flags = [] ∨ flags.length < config.maxFlags

/-- What a valid manifest needs to be built. -/
structure Buildable (m : Manifest) : Prop where
  global : FlagsFit m.config m.flags
  subcommand : ∀ spec ∈ m.subcommands, FlagsFit m.config spec.flags
  nodup : (m.subcommands.map (·.name)).Nodup
  length_le : m.subcommands.length ≤ m.config.maxSubcommands

theorem noneFails_flags {config : Config} {scope? : Option String} {before : List Declaration}
    {flags : List FlagSpec} (hnamed : ∀ spec ∈ flags, spec.isNamed = true)
    (hdeclared : Declares before scope?) :
    NoneFails config before (flags.map (.flag scope?)) ↔ (∀ spec ∈ flags, spec.DefaultFits) ∧
      (flags = [] ∨ (flagsIn scope? before).length + flags.length < config.maxFlags) := by
  induction flags generalizing before with
  | nil => simp [NoneFails]
  | cons spec flags ih =>
    obtain ⟨hspec, hflags⟩ := List.forall_mem_cons.mp hnamed
    have hdeclared' := hdeclared.append [.flag scope? spec]
    have hlength : (flagsIn scope? (before ++ [.flag scope? spec])).length =
        (flagsIn scope? before).length + 1 := by
      simp [flagsIn, flagIn?]
    rw [List.map_cons, NoneFails, ih hflags hdeclared', hlength, List.forall_mem_cons]
    simp only [Fails, hspec, hdeclared, not_true_eq_false, Bool.true_eq_false, false_or, not_or,
      not_not, Nat.not_le, List.length_cons, reduceCtorEq]
    constructor
    · rintro ⟨⟨hfits, hroom⟩, hrest, rfl | hmore⟩
      · exact ⟨⟨hfits, hrest⟩, hroom⟩
      · exact ⟨⟨hfits, hrest⟩, by omega⟩
    · rintro ⟨⟨hfits, hrest⟩, hroom⟩
      exact ⟨⟨hfits, by omega⟩, hrest, .inr (by omega)⟩

theorem noneFails_ofScope {config : Config} {scope? : Option String} {before : List Declaration}
    {positional : Option PositionalSpec} {flags : List FlagSpec}
    (hnamed : ∀ spec ∈ flags, spec.isNamed = true) (hdeclared : Declares before scope?)
    (hnone : flagsIn scope? before = []) :
    NoneFails config before (ofScope scope? positional flags) ↔ FlagsFit config flags := by
  have hfirst : NoneFails config before (positional.map (.positional scope?)).toList := by
    cases positional with
    | none => trivial
    | some spec => exact ⟨not_not.mpr hdeclared, trivial⟩
  have hnone' : flagsIn scope? (before ++ (positional.map (.positional scope?)).toList) = [] := by
    rw [flagsIn_append, hnone]
    cases positional <;> rfl
  unfold ofScope
  rw [noneFails_append, noneFails_flags hnamed (hdeclared.append _), hnone']
  simp only [hfirst, true_and, List.length_nil, Nat.zero_add]
  exact ⟨fun h => ⟨h.1, h.2⟩, fun h => ⟨h.defaults, h.room⟩⟩

/-- A subcommand does not fail if with it there are not too many, and all names are distinct. -/
theorem not_fails_subcommand_iff {config : Config} {before : List Declaration}
    {spec : SubcommandSpec} (hnodup : ((subcommandsIn before).map (·.name)).Nodup) :
    ¬ (Declaration.subcommand spec).Fails config before ↔
      ((subcommandsIn before ++ [spec]).map (·.name)).Nodup ∧
        (subcommandsIn before ++ [spec]).length ≤ config.maxSubcommands := by
  rw [List.map_append, List.map_singleton, List.nodup_middle, List.append_nil, List.nodup_cons,
    List.length_append, List.length_singleton]
  simp only [Fails, not_or, Nat.not_le]
  constructor
  · rintro ⟨hroom, hnew⟩
    exact ⟨⟨hnew, hnodup⟩, hroom⟩
  · rintro ⟨⟨hnew, _⟩, hroom⟩
    exact ⟨hroom, hnew⟩

theorem noneFails_subcommands {config : Config} {before : List Declaration}
    {specs : List SubcommandSpec}
    (hnamed : ∀ spec ∈ specs, ∀ flag ∈ spec.flags, flag.isNamed = true)
    (hscopes : AsksInScopes before) (hnodup : ((subcommandsIn before).map (·.name)).Nodup)
    (hle : (subcommandsIn before).length ≤ config.maxSubcommands) :
    NoneFails config before (specs.flatMap ofSubcommand) ↔
      (∀ spec ∈ specs, FlagsFit config spec.flags) ∧
        ((subcommandsIn before ++ specs).map (·.name)).Nodup ∧
        (subcommandsIn before ++ specs).length ≤ config.maxSubcommands := by
  induction specs generalizing before with
  | nil => simp [NoneFails, hnodup, hle]
  | cons spec specs ih =>
    obtain ⟨hspec, hspecs⟩ := List.forall_mem_cons.mp hnamed
    have hsplit : subcommandsIn before ++ spec :: specs =
        (subcommandsIn before ++ [spec]) ++ specs := by
      rw [List.append_assoc]
      rfl
    have hhead : NoneFails config before (ofSubcommand spec) ↔
        ¬ (Declaration.subcommand spec).Fails config before ∧
          NoneFails config (before ++ [.subcommand spec])
            (ofScope (some spec.name) spec.positional spec.flags) := Iff.rfl
    rw [List.flatMap_cons, noneFails_append, hhead, not_fails_subcommand_iff hnodup, hsplit,
      List.forall_mem_cons]
    by_cases hnew : ((subcommandsIn before ++ [spec]).map (·.name)).Nodup ∧
        (subcommandsIn before ++ [spec]).length ≤ config.maxSubcommands
    · have hfresh : spec.name ∉ (subcommandsIn before).map (·.name) := by
        have hroom := (not_fails_subcommand_iff hnodup).mpr hnew
        exact fun hmem => hroom (.inr hmem)
      have hdeclared : Declares (before ++ [.subcommand spec]) (some spec.name) := by
        rintro name ⟨⟩
        rw [subcommandsIn_append, List.map_append]
        exact List.mem_append_right _ List.mem_cons_self
      have hnone : flagsIn (some spec.name) (before ++ [.subcommand spec]) = [] :=
        (asks_subcommand_eq _ before spec).1.trans (hscopes spec.name hfresh).1
      have hasked : subcommandsIn (before ++ ofSubcommand spec) =
          subcommandsIn before ++ [spec] := by
        rw [subcommandsIn_append, subcommandsIn_ofSubcommand]
      have hrest := ih hspecs (hscopes.append (asksInScopes_ofSubcommand spec))
        (hasked ▸ hnew.1) (hasked ▸ hnew.2)
      rw [noneFails_ofScope hspec hdeclared hnone, hrest, hasked]
      simp only [hnew, true_and, and_assoc]
    · -- the subcommand itself fails, and more of them do not mend it
      refine iff_of_false (fun h => hnew h.1.1) ?_
      rintro ⟨_, hnodup', hle'⟩
      rw [List.map_append] at hnodup'
      rw [List.length_append] at hle'
      exact hnew ⟨hnodup'.of_append_left, by omega⟩

theorem isNamed_of_validate {m : Manifest} (hvalid : m.validate = .ok ()) :
    ∀ spec ∈ m.allFlags, spec.isNamed = true := by
  rw [validate, List.forM_eq_forM] at hvalid
  generalize m.allFlags = specs at hvalid
  induction specs with
  | nil => simp
  | cons spec specs ih =>
    rw [List.forM_cons] at hvalid
    obtain ⟨_, hspec, hspecs⟩ := Registry.bind_eq_ok.mp hvalid
    rintro spec' (_ | ⟨_, hmem⟩)
    · exact (FlagSpec.validate_eq_ok_iff.mp hspec).1
    · exact ih hspecs spec' hmem

/-- In the script of a valid manifest no declaration fails exactly if the manifest can be built. -/
theorem noneFails_declarations_iff {m : Manifest} (hvalid : m.validate = .ok ()) :
    NoneFails m.config [] m.declarations ↔ m.Buildable := by
  have hnamed := isNamed_of_validate hvalid
  have hflags : ∀ spec ∈ m.flags, spec.isNamed = true :=
    fun spec hspec => hnamed spec (List.mem_append_left _ hspec)
  have hsubcommands : ∀ sub ∈ m.subcommands, ∀ spec ∈ sub.flags, spec.isNamed = true :=
    fun sub hsub spec hspec =>
      hnamed spec (List.mem_append_right _ (List.mem_flatMap.mpr ⟨sub, hsub, hspec⟩))
  have hasked := subcommandsIn_ofScope none m.positional m.flags
  have hscopes : AsksInScopes (ofScope none m.positional m.flags) := by
    intro name _
    rw [flagsIn_ofScope, positionalIn_ofScope]
    exact ⟨rfl, rfl⟩
  unfold declarations
  rw [noneFails_append, noneFails_ofScope hflags (fun name h => by cases h) rfl, List.nil_append,
    noneFails_subcommands hsubcommands hscopes (by simp [hasked]) (by simp [hasked]), hasked]
  constructor
  · rintro ⟨hglobal, hsub, hnodup, hle⟩
    exact ⟨hglobal, hsub, hnodup, hle⟩
  · intro h
    exact ⟨h.global, h.subcommand, h.nodup, h.length_le⟩

/-! ## The registry of a manifest -/

/-- A registry is as a manifest says. The global scope and those of the subcommands hold their help
flag, the flags of the manifest in order and its positional argument. The subcommands come in the
order of the manifest, and none of them is selected. -/
structure MirroredBy (m : Manifest) (r : Registry) : Prop where
  config_eq : r.config = m.config
  global : r.global.Reflects m.config m.positional m.flags
  subcommands : List.Forall₂ (fun spec sub => sub.name = spec.name ∧
    sub.description = spec.description ∧ sub.isActive = false ∧
    sub.scope.Reflects m.config spec.positional spec.flags) m.subcommands r.subcommands

theorem mirroredBy_of_reflects {m : Manifest} {r : Registry}
    (hnodup : (m.subcommands.map (·.name)).Nodup) (h : r.Reflects m.config m.declarations) :
    m.MirroredBy r := by
  have hglobal := h.scope none r.global rfl
  rw [m.asks_global.1, m.asks_global.2] at hglobal
  have hheadings := h.subcommands_eq
  rw [subcommandsIn_declarations] at hheadings
  refine ⟨h.config_eq, hglobal, List.forall₂_iff_get.mpr ⟨?_, fun i hspec hsub => ?_⟩⟩
  · rw [h.length_eq, subcommandsIn_declarations]
  · have hheading := List.getElem_of_eq hheadings (by rwa [List.length_map])
    rw [List.getElem_map, List.getElem_map, Prod.mk.injEq, Prod.mk.injEq] at hheading
    obtain ⟨hname, hdescription, hactive⟩ := hheading
    have hscope := h.scope (some _) _ ⟨_, List.get_mem r.subcommands ⟨i, hsub⟩, hname, rfl⟩
    obtain ⟨hflags, hpositional⟩ := asks_subcommand hnodup (List.get_mem m.subcommands ⟨i, hspec⟩)
    refine ⟨hname, hdescription, hactive, ?_⟩
    rw [← hflags, ← hpositional]
    exact hscope

/-! ## Room for a manifest -/

/-- There can be room for all that a manifest asks for: for the table of names, and for the values
of its positional arguments, if it has any. -/
structure HasRoom (m : Manifest) : Prop where
  table : m.config.TableFits
  positionals : m.config.PositionalsFit ∨
    m.positional = none ∧ ∀ spec ∈ m.subcommands, spec.positional = none

/-- There cannot be room for the table of names, or for the values of a positional argument that
comes before any declaration that fails. -/
def Overflows (m : Manifest) : Prop :=
  ¬ m.config.TableFits ∨ ∃ front d back, m.declarations = front ++ d :: back ∧
    NoneFails m.config [] (front ++ [d]) ∧ d.Overflows m.config

theorem forall_not_overflows_ofScope {config : Config} (h : ¬ config.PositionalsFit)
    (scope? : Option String) (positional : Option PositionalSpec) (flags : List FlagSpec) :
    (∀ d ∈ ofScope scope? positional flags, ¬ d.Overflows config) ↔ positional = none := by
  unfold ofScope
  cases positional <;> simp [Declaration.Overflows, h]

/-- Only the positional arguments of a manifest can ask for more room than there can be. -/
theorem forall_not_overflows_iff (m : Manifest) :
    (∀ d ∈ m.declarations, ¬ d.Overflows m.config) ↔ m.config.PositionalsFit ∨
      m.positional = none ∧ ∀ spec ∈ m.subcommands, spec.positional = none := by
  by_cases hfits : m.config.PositionalsFit
  · refine iff_of_true (fun d _ => ?_) (.inl hfits)
    cases d <;> simp [Declaration.Overflows, hfits]
  · have hsubcommand : ∀ spec : SubcommandSpec, (∀ d ∈ ofSubcommand spec,
        ¬ d.Overflows m.config) ↔ spec.positional = none := by
      intro spec
      unfold ofSubcommand
      rw [List.forall_mem_cons, forall_not_overflows_ofScope hfits]
      simp [Declaration.Overflows]
    unfold declarations
    simp only [hfits, false_or, List.forall_mem_append, forall_not_overflows_ofScope hfits,
      List.forall_mem_flatMap, hsubcommand]

/-! ## Building -/

/-- The positional argument of the global scope is declared first. -/
theorem overflows_of_positional {m : Manifest} {spec : PositionalSpec}
    (h : m.positional = some spec) (hfits : ¬ m.config.PositionalsFit) : m.Overflows := by
  have hfirst : m.declarations = .positional none spec ::
      (m.flags.map (.flag none) ++ m.subcommands.flatMap ofSubcommand) := by
    unfold declarations ofScope
    rw [h]
    rfl
  refine .inr ⟨[], .positional none spec, _, hfirst, ⟨not_not.mpr fun name hname => ?_, trivial⟩,
    hfits⟩
  cases hname

/-- Building makes every declaration of the manifest, or ends at the first one that fails or asks
for too much room. Before that the table of names may ask for too much. -/
theorem build_spec (m : Manifest) (id : Nat) :
    (¬ m.config.TableFits ∧ m.build id = .error (.stopped .overflow)) ∨
      m.config.TableFits ∧
        ((RunsThrough m.config [] m.declarations ∧
            ∃ r, m.build id = .ok r ∧ r.Reflects m.config m.declarations) ∨
          ∃ front d back, m.declarations = front ++ d :: back ∧ RunsThrough m.config [] front ∧
            ((d.Fails m.config front ∧
                ∃ e, m.build id = .error (.refused e) ∧ e.context = d.title) ∨
              ¬ d.Fails m.config front ∧ d.Overflows m.config ∧
                m.build id = .error (.stopped .overflow))) := by
  by_cases htable : m.config.TableFits
  · have hstart := Registry.reflects_start id m.name m.description m.config
    rw [build_eq_foldlM htable]
    by_cases hruns : RunsThrough m.config [] m.declarations
    · exact .inr ⟨htable, .inl ⟨hruns, hstart.foldlM_eq_ok hruns⟩⟩
    · exact .inr ⟨htable, .inr (hstart.foldlM_eq_error hruns)⟩
  · exact .inl ⟨htable, build_of_not_tableFits htable id⟩

/-- A registry is built only by a script that runs through, and reflects it. -/
theorem reflects_of_build {m : Manifest} {id : Nat} {r : Registry} (h : m.build id = .ok r) :
    m.config.TableFits ∧ RunsThrough m.config [] m.declarations ∧
      r.Reflects m.config m.declarations := by
  rcases m.build_spec id with ⟨_, hbuild⟩ | ⟨htable, ⟨hruns, r', hbuild, hr'⟩ |
    ⟨_, _, _, _, _, ⟨_, _, hbuild, _⟩ | ⟨_, _, hbuild⟩⟩⟩
  · cases h.symm.trans hbuild
  · obtain rfl := Except.ok.inj (h.symm.trans hbuild)
    exact ⟨htable, hruns, hr'⟩
  · cases h.symm.trans hbuild
  · cases h.symm.trans hbuild

theorem build_eq_ok_iff {m : Manifest} (hvalid : m.validate = .ok ()) (id : Nat) :
    (∃ r, m.build id = .ok r) ↔ m.Buildable ∧ m.HasRoom := by
  have hruns : RunsThrough m.config [] m.declarations ↔ m.Buildable ∧ (m.config.PositionalsFit ∨
      m.positional = none ∧ ∀ spec ∈ m.subcommands, spec.positional = none) :=
    and_congr (noneFails_declarations_iff hvalid) m.forall_not_overflows_iff
  constructor
  · rintro ⟨r, hr⟩
    obtain ⟨htable, hall, _⟩ := reflects_of_build hr
    obtain ⟨hbuildable, hroom⟩ := hruns.mp hall
    exact ⟨hbuildable, htable, hroom⟩
  · rintro ⟨hbuildable, htable, hroom⟩
    have hstart := Registry.reflects_start id m.name m.description m.config
    obtain ⟨r, hr, _⟩ := hstart.foldlM_eq_ok (hruns.mpr ⟨hbuildable, hroom⟩)
    exact ⟨r, (build_eq_foldlM htable id).trans hr⟩

/-- A declaration that asks for too much room is not behind the first one that fails. -/
theorem not_overflows_of_fails {config : Config} {ds front back front' back' : List Declaration}
    {d d' : Declaration} (h : ds = front ++ d :: back) (hfront : RunsThrough config [] front)
    (hd : d.Fails config front) (h' : ds = front' ++ d' :: back')
    (hfront' : NoneFails config [] (front' ++ [d'])) : ¬ d'.Overflows config := by
  -- the one that fails is not among those that do not
  have hnot : ¬ front ++ [d] <+: front' ++ [d'] := by
    rintro ⟨after, hafter⟩
    rw [← hafter, List.append_assoc, noneFails_append] at hfront'
    exact hfront'.2.1 hd
  have hleft : front ++ [d] <+: ds := ⟨back, by rw [h, List.append_assoc]; rfl⟩
  have hright : front' ++ [d'] <+: ds := ⟨back', by rw [h', List.append_assoc]; rfl⟩
  have hbefore : front' ++ [d'] <+: front := by
    rcases List.prefix_or_prefix_of_prefix hleft hright with hle | hle
    · exact absurd hle hnot
    · rcases List.prefix_concat_iff.mp hle with heq | hle
      · exact absurd (heq ▸ List.prefix_rfl) hnot
      · exact hle
  exact hfront.2 d' (hbefore.mem (List.mem_append_right _ List.mem_cons_self))

theorem build_eq_stopped_iff (m : Manifest) (id : Nat) :
    m.build id = .error (.stopped .overflow) ↔ m.Overflows := by
  rcases m.build_spec id with ⟨htable, hbuild⟩ | ⟨htable, ⟨hall, r, hbuild, _⟩ |
    ⟨front, d, back, hds, hfront, ⟨hd, e, hbuild, _⟩ | ⟨hd, hroom, hbuild⟩⟩⟩
  · exact iff_of_true hbuild (.inl htable)
  · refine iff_of_false (fun h => by cases hbuild.symm.trans h) ?_
    rintro (h | ⟨front, d, back, hds, _, hroom⟩)
    · exact h htable
    · exact hall.2 d (hds ▸ List.mem_append_right _ List.mem_cons_self) hroom
  · refine iff_of_false (fun h => by cases hbuild.symm.trans h) ?_
    rintro (h | ⟨front', d', back', hds', hfront', hroom⟩)
    · exact h htable
    · exact not_overflows_of_fails hds hfront hd hds' hfront' hroom
  · refine iff_of_true hbuild (.inr ⟨front, d, back, hds, ?_, hroom⟩)
    exact noneFails_append.mpr ⟨hfront.1, hd, trivial⟩

/-- **Building.** A valid manifest is built exactly if every default of a single value fits, the
names of the subcommands are distinct, there are not too many of them, no scope has too many flags,
and there can be room for what the manifest asks for. The registry is then as the manifest says. If
a declaration is refused, the first message names the first declaration of the manifest that fails.
The program is stopped exactly if there cannot be room for the table of names, or for the values of
a positional argument that comes before any declaration that fails. -/
theorem build_mirrors_or_stops (m : Manifest) (hvalid : m.validate = .ok ()) (id : Nat) :
    ((∃ r, m.build id = .ok r) ↔ m.Buildable ∧ m.HasRoom) ∧
      (∀ r, m.build id = .ok r → m.MirroredBy r) ∧
      (∀ e, m.build id = .error (.refused e) →
        ∃ front d back, m.declarations = front ++ d :: back ∧ NoneFails m.config [] front ∧
          d.Fails m.config front ∧ e.chain.head? = some d.title) ∧
      (m.build id = .error (.stopped .overflow) ↔ m.Overflows) := by
  refine ⟨build_eq_ok_iff hvalid id, fun r hr => ?_, fun e he => ?_, m.build_eq_stopped_iff id⟩
  · have hbuildable := ((build_eq_ok_iff hvalid id).mp ⟨r, hr⟩).1
    exact mirroredBy_of_reflects hbuildable.nodup (reflects_of_build hr).2.2
  · rcases m.build_spec id with ⟨_, hbuild⟩ | ⟨_, ⟨_, _, hbuild, _⟩ |
      ⟨front, d, back, hds, hfront, ⟨hd, e', hbuild, htitle⟩ | ⟨_, _, hbuild⟩⟩⟩
    · cases he.symm.trans hbuild
    · cases he.symm.trans hbuild
    · cases he.symm.trans hbuild
      exact ⟨front, d, back, hds, hfront.1, hd, congrArg some htitle⟩
    · cases he.symm.trans hbuild

theorem build_mirrors_or_stops_sample :
    let level : FlagSpec := {
      long := some "level", short := some 'l', kind := .int .u8, list := false
      default := some (.string "0x1F"), description := "" }
    let m (names : List String) (config : Config) : Manifest := {
      name := "tool", description := "", config := config, positional := none
      flags := [level]
      subcommands := names.map fun name =>
        { name := name, description := "", positional := some ⟨"file", ""⟩, flags := [level] } }
    let small : Config := { maxFlags := 2 }
    let large : Config := { maxFlags := 2, maxPositionals := 384307168202282326 }
    ((m ["run", "stop"] small).validate = .ok () ∧
        ∃ r, (m ["run", "stop"] small).build 0 = .ok r ∧ (m ["run", "stop"] small).MirroredBy r) ∧
      ((m ["run", "run"] small).validate = .ok () ∧
        ∃ e, (m ["run", "run"] small).build 0 = .error (.refused e) ∧
          ∃ front d back, (m ["run", "run"] small).declarations = front ++ d :: back ∧
            NoneFails small [] front ∧ d.Fails small front ∧ e.chain.head? = some d.title) ∧
      (m ["run", "run"] large).validate = .ok () ∧
        (m ["run", "run"] large).build 0 = .error (.stopped .overflow) := by
  intro level m small large
  have hdefault : ∀ spec ∈ [level], spec.DefaultFits := by
    intro spec hspec
    obtain rfl := List.mem_singleton.mp hspec
    rintro _ _ ⟨⟩
    exact ⟨(⟨31, by decide, by decide⟩ : Number .u8), .literal (by decide)⟩
  have hfits : FlagsFit small [level] := ⟨hdefault, .inr (by decide)⟩
  refine ⟨⟨rfl, ?_⟩, ⟨rfl, ?_⟩, rfl, ?_⟩
  · obtain ⟨hbuilt, hmirrored, _, _⟩ := build_mirrors_or_stops (m ["run", "stop"] small) rfl 0
    have hbuildable : (m ["run", "stop"] small).Buildable := {
      global := hfits
      subcommand := by
        intro spec hspec
        obtain ⟨name, _, rfl⟩ := List.mem_map.mp hspec
        exact hfits
      nodup := by decide
      length_le := by decide }
    obtain ⟨r, hr⟩ := hbuilt.mpr ⟨hbuildable, {
      table := Config.tableFits_iff.mpr (by decide)
      positionals := .inl (Config.positionalsFit_iff.mpr (by decide)) }⟩
    exact ⟨r, hr, hmirrored r hr⟩
  · obtain ⟨hbuilt, _, hrefused, hstopped⟩ := build_mirrors_or_stops (m ["run", "run"] small) rfl 0
    rcases hbuild : (m ["run", "run"] small).build 0 with (e | ⟨⟨⟩⟩) | r
    · exact ⟨e, rfl, hrefused e hbuild⟩
    · rcases hstopped.mp hbuild with h | ⟨_, d, _, _, _, h⟩
      · exact absurd (Config.tableFits_iff.mpr (by decide)) h
      · cases d with
        | positional scope? spec => exact absurd (Config.positionalsFit_iff.mpr (by decide)) h
        | flag scope? spec => exact h.elim
        | subcommand spec => exact h.elim
    · exact absurd (hbuilt.mp ⟨r, hbuild⟩).1.nodup (by decide)
  · -- the first positional argument comes before the second subcommand of the name
    obtain ⟨_, _, _, hstopped⟩ := build_mirrors_or_stops (m ["run", "run"] large) rfl 0
    refine hstopped.mpr (.inr ⟨[.flag none level, .subcommand _],
      .positional (some "run") ⟨"file", ""⟩, _, rfl, ?_, ?_⟩)
    · refine ⟨?_, ?_, not_not.mpr ?_, trivial⟩
      · rintro (h | h | h | h)
        · exact h (hdefault level List.mem_cons_self)
        · cases h
        · exact h fun name hname => by cases hname
        · exact absurd h (by decide)
      · rintro (h | h)
        · exact absurd h (by decide)
        · cases h
      · rintro name ⟨⟩
        exact List.mem_cons_self
    · exact fun h => absurd (Config.positionalsFit_iff.mp h) (by decide)

/-- A manifest without flags and subcommands that sets the largest limit of positional values. It
lacks nothing but the room. -/
theorem stopped_of_largest_limit :
    let m : Manifest := {
      name := "", description := "", config := { maxPositionals := 9223372036854775807 }
      positional := some ⟨"F", ""⟩, flags := [], subcommands := [] }
    m.validate = .ok () ∧ m.Buildable ∧ m.build 1 = .error (.stopped .overflow) := by
  intro m
  refine ⟨rfl, ⟨⟨by simp [m], .inl rfl⟩, by simp [m], by simp [m], Nat.zero_le _⟩, ?_⟩
  refine (m.build_eq_stopped_iff 1).mpr (overflows_of_positional rfl fun h => ?_)
  exact absurd (Config.positionalsFit_iff.mp h) (by decide)

end CommandLine.Manifest

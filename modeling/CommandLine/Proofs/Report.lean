import CommandLine.Manifest.Decode
import CommandLine.Proofs.Building
import CommandLine.Proofs.Frame
import CommandLine.Report

/-!
# What a report shows under a name

On the command line a long name belongs to the first flag that has it. In a report a key belongs to
the last flag that has it, since each flag replaces what stands under its key.

1. `lookup_flagFields` says what stands under a key, and `Reports.at?_place` that a report shows
   this for each of its scopes.
2. `Manifest.keysIn` lists the keys of a scope from the manifest; a parse does not change them
   (`Reports.map_key_eq`).
3. So a report shows the value that a long name sets, unless a flag declared later has the same key
   and another value (`report_at_long`). Two flags of one long name are such a case
   (`report_at_repeated_long`).
-/

namespace CommandLine

/-- The value at a path of field names. -/
def Json.at? : Json → List String → Option Json
  | j, [] => some j
  | .object fields, name :: path => (fields.lookup name).bind (·.at? path)
  | _, _ :: _ => none

/-- The flag at an index is the last one of a scope with a property. -/
def Scope.IsLast (s : Scope) (p : Flag → Prop) (index : Nat) : Prop :=
  (∃ f, s.flags[index]? = some f ∧ p f) ∧ ∀ j > index, ∀ g, s.flags[j]? = some g → ¬ p g

theorem Scope.exists_isLast {s : Scope} {p : Flag → Prop} {index : Nat} {f : Flag}
    (hf : s.flags[index]? = some f) (hp : p f) : ∃ j, index ≤ j ∧ s.IsLast p j := by
  induction hrest : s.flags.length - index using Nat.strong_induction_on generalizing index f with
  | _ rest ih =>
    by_cases hlater : ∃ j g, index < j ∧ s.flags[j]? = some g ∧ p g
    · obtain ⟨j, g, hj, hg, hpg⟩ := hlater
      have hlt : j < s.flags.length := (List.getElem?_eq_some_iff.mp hg).1
      obtain ⟨last, hle, hlast⟩ := ih (s.flags.length - j) (by omega) hg hpg rfl
      exact ⟨last, by omega, hlast⟩
    · exact ⟨index, Nat.le_refl _, ⟨f, hf, hp⟩, fun j hj g hg hpg => hlater ⟨j, g, hj, hg, hpg⟩⟩

namespace Report

/-! ## Fields -/

theorem lookup_cons_eq (key name : String) (j : Json) (fields : List (String × Json)) :
    ((name, j) :: fields).lookup key = if key = name then some j else fields.lookup key := by
  rw [List.lookup_cons]
  by_cases hkey : key = name
  · simp [hkey]
  · simp [hkey, beq_eq_false_iff_ne.mpr hkey]

theorem lookup_insertField (name key : String) (j : Json) (fields : List (String × Json)) :
    (insertField name j fields).lookup key = if key = name then some j else fields.lookup key := by
  induction fields with
  | nil => exact lookup_cons_eq key name j []
  | cons field fields ih =>
    obtain ⟨n, i⟩ := field
    unfold insertField
    split
    · exact lookup_cons_eq key name j _
    · split
      · rename_i heq
        subst heq
        rw [lookup_cons_eq, lookup_cons_eq]
        by_cases hkey : key = name
        · rw [if_pos hkey, if_pos hkey]
        · rw [if_neg hkey, if_neg hkey, if_neg hkey]
      · rename_i hne
        rw [lookup_cons_eq, lookup_cons_eq, ih]
        by_cases hkey : key = n
        · have hother : ¬ key = name := fun heq => hne (heq.symm.trans hkey)
          rw [if_pos hkey, if_neg hother, if_pos hkey]
        · rw [if_neg hkey, if_neg hkey]

theorem lookup_foldl_insertField {key : String} {flags : List Flag}
    (hne : ∀ f ∈ flags, f.key ≠ key) (fields : List (String × Json)) :
    (flags.foldl (fun fields flag => insertField flag.key flag.value.toJson fields) fields).lookup
      key = fields.lookup key := by
  induction flags generalizing fields with
  | nil => rfl
  | cons f flags ih =>
    obtain ⟨hf, hflags⟩ := List.forall_mem_cons.mp hne
    rw [List.foldl_cons, ih hflags, lookup_insertField, if_neg (Ne.symm hf)]

/-- Under a key stands the value of the last flag that has it. -/
theorem lookup_flagFields {s : Scope} {key : String} {index : Nat} {g : Flag}
    (hlast : s.IsLast (·.key = key) index) (hg : s.flags[index]? = some g) :
    (flagFields s.flags).lookup key = some g.value.toJson := by
  obtain ⟨⟨g', hg', hkey⟩, hafter⟩ := hlast
  obtain rfl := Option.some.inj (hg.symm.trans hg')
  have hsplit : s.flags = s.flags.take index ++ g :: s.flags.drop (index + 1) := by
    obtain ⟨hlt, rfl⟩ := List.getElem?_eq_some_iff.mp hg
    rw [List.getElem_cons_drop, List.take_append_drop]
  have hne : ∀ f ∈ s.flags.drop (index + 1), f.key ≠ key := by
    intro f hf
    obtain ⟨j, hj⟩ := List.getElem?_of_mem hf
    rw [List.getElem?_drop] at hj
    exact hafter _ (by omega) f hj
  unfold flagFields
  rw [hsplit, List.foldl_append, List.foldl_cons, lookup_foldl_insertField hne,
    lookup_insertField, if_pos hkey.symm]

end Report

namespace Registry

/-- A scope that is reported: the global one, and that of the selected subcommand under its name. -/
inductive Reports (r : Registry) : Option String → Scope → Prop
  | global : Reports r none r.global
  | subcommand {sub : Subcommand} (hactive : r.activeSubcommand = some sub) :
      Reports r (some sub.name) sub.scope

end Registry

/-- Where the flags of a scope stand in a report. -/
def Report.place : Option String → List String
  | none => ["global", "flags"]
  | some _ => ["subcommand", "flags"]

theorem Registry.Reports.at?_place {r : Registry} {scope? : Option String} {s : Scope}
    (h : r.Reports scope? s) (key : String) :
    (Report.ofRegistry r).at? (Report.place scope? ++ [key]) =
      (Report.flagFields s.flags).lookup key := by
  cases h with
  | global =>
    simp [Report.ofRegistry, Report.place, Report.scopeFields, Json.at?, Report.lookup_cons_eq]
  | subcommand hactive =>
    simp [Report.ofRegistry, Report.place, Report.scopeFields, Json.at?, Report.lookup_cons_eq,
      hactive]

/-! ## Keys -/

/-- The key under which a flag of a manifest is reported. -/
def FlagSpec.key (spec : FlagSpec) : String :=
  match spec.longName?, spec.short with
  | some long, _ => long
  | none, some c => String.ofList [c]
  | none, none => ""

theorem FlagSpec.Describes.key_eq {spec : FlagSpec} {f : Flag} (h : spec.Describes f) :
    f.key = spec.key := by
  obtain ⟨long, short, _, _, _⟩ := f
  obtain rfl : long = spec.longName? := h.long_eq
  obtain rfl : short = spec.short := h.short_eq
  rfl

theorem FlagSpec.map_key_eq {specs : List FlagSpec} {flags : List Flag}
    (h : List.Forall₂ Describes specs flags) : flags.map (·.key) = specs.map (·.key) := by
  induction h with
  | nil => rfl
  | cons hf _ ih => rw [List.map_cons, List.map_cons, hf.key_eq, ih]

/-- The keys of a scope of a manifest in the order of declaration, that of the help flag first. -/
def Manifest.keysIn (m : Manifest) (scope? : Option String) : List String :=
  m.config.helpFlags.map (·.key) ++
    (Manifest.Declaration.flagsIn scope? m.declarations).map (·.key)

theorem Scope.Reflects.map_key_eq {config : Config} {positional : Option PositionalSpec}
    {flags : List FlagSpec} {s : Scope} (h : s.Reflects config positional flags) :
    s.flags.map (·.key) = config.helpFlags.map (·.key) ++ flags.map (·.key) := by
  obtain ⟨declared, hflags, hdescribes⟩ := h.flags
  rw [hflags, List.map_append, FlagSpec.map_key_eq hdescribes]

theorem Scope.SameDeclared.map_key_eq {s s' : Scope} (h : s.SameDeclared s') :
    s'.flags.map (·.key) = s.flags.map (·.key) := by
  have hkeys := congrArg (List.map Flag.key) h.declarations_eq
  rwa [Scope.declarations, Scope.declarations, List.map_map, List.map_map] at hkeys

namespace Registry

/-- A reported scope was declared under its name. -/
theorem SameDeclared.exists_named {r r' : Registry} (h : r.SameDeclared r')
    {scope? : Option String} {s : Scope} (hs : r'.Reports scope? s) :
    ∃ s₀, r.Named scope? s₀ ∧ s₀.SameDeclared s := by
  cases hs with
  | global =>
    obtain ⟨s', hs', hsame⟩ := h.scope .global r.global rfl
    obtain rfl := Except.ok.inj hs'
    exact ⟨r.global, rfl, hsame⟩
  | @subcommand sub hactive =>
    obtain ⟨slot, _, hsub⟩ := Option.bind_eq_some_iff.mp hactive
    have hheading := congrArg (·[slot]?) h.subcommands_eq
    simp only [List.getElem?_map, hsub, Option.map_some] at hheading
    obtain ⟨sub₀, hsub₀, heq⟩ := Option.map_eq_some_iff.mp hheading.symm
    obtain ⟨s', hs', hsame⟩ :=
      h.scope (.subcommand slot) sub₀.scope (scope_subcommand_eq_ok_iff.mpr ⟨sub₀, hsub₀, rfl⟩)
    obtain ⟨sub', hsub', rfl⟩ := scope_subcommand_eq_ok_iff.mp hs'
    obtain rfl := Option.some.inj (hsub.symm.trans hsub')
    exact ⟨sub₀.scope, ⟨sub₀, List.mem_of_getElem? hsub₀, (Prod.mk.inj heq).1, rfl⟩, hsame⟩

theorem Reports.map_key_eq {m : Manifest} {id : Nat} {r r' : Registry} {args : List String}
    {scope? : Option String} {s : Scope} (hbuild : m.build id = .ok r)
    (hparse : r.parse args = (r', .ok ())) (hs : r'.Reports scope? s) :
    s.flags.map (·.key) = m.keysIn scope? := by
  have hreflects := (Manifest.reflects_of_build hbuild).2.2
  have hsame := sameDeclared_parse hreflects.names args
  rw [hparse] at hsame
  obtain ⟨s₀, hnamed, hsame₀⟩ := hsame.exists_named hs
  rw [hsame₀.map_key_eq, (hreflects.scope scope? s₀ hnamed).map_key_eq]
  rfl

/-! ## The value under a long name -/

/-- **Reports.** After a parse that succeeds, a report shows under a long name the value of the last
flag with that key. This is the value of the flag that the name sets on the command line exactly if
no flag that the manifest declares later in the scope has that key, or if it has the same value. -/
theorem report_at_long {m : Manifest} {id : Nat} {r r' : Registry} {args : List String}
    (hbuild : m.build id = .ok r) (hparse : r.parse args = (r', .ok ())) {scope? : Option String}
    {s : Scope} (hs : r'.Reports scope? s) {long : String} {i : Nat} {f : Flag}
    (hfind : s.findLong long = some i) (hf : s.flags[i]? = some f) :
    ∃ j g, s.IsLast (·.key = long) j ∧ s.flags[j]? = some g ∧
      (Report.ofRegistry r').at? (Report.place scope? ++ [long]) = some g.value.toJson ∧
      ((Report.ofRegistry r').at? (Report.place scope? ++ [long]) = some f.value.toJson ↔
        long ∉ (m.keysIn scope?).drop (i + 1) ∨ g.value.toJson = f.value.toJson) := by
  have hkey : f.key = long := by
    obtain ⟨⟨f', hf', hlong⟩, _⟩ := Scope.findLong_eq_some_iff.mp hfind
    obtain rfl := Option.some.inj (hf.symm.trans hf')
    unfold Flag.key
    rw [hlong]
  obtain ⟨j, hle, hlast⟩ := Scope.exists_isLast (p := (·.key = long)) hf hkey
  obtain ⟨g, hg, hgkey⟩ := hlast.1
  have hentry := (hs.at?_place long).trans (Report.lookup_flagFields hlast hg)
  refine ⟨j, g, hlast, hg, hentry, ?_⟩
  rw [hentry, Option.some.injEq]
  refine ⟨.inr, ?_⟩
  rintro (hnone | heq)
  · -- without a later flag of this key the last one is the first one
    have hj : j = i := by
      by_contra hne
      refine hnone (List.mem_of_getElem? (i := j - (i + 1)) ?_)
      rw [List.getElem?_drop, ← hs.map_key_eq hbuild hparse, List.getElem?_map,
        show i + 1 + (j - (i + 1)) = j by omega, hg, ← hgkey]
      rfl
    subst hj
    rw [Option.some.inj (hg.symm.trans hf)]
  · exact heq

/-- Of two flags with one long name the first is set, and the report shows the second. -/
theorem report_at_repeated_long :
    let text := "[[flags]]\nlong = \"n\"\nkind = \"u8\"\n[[flags]]\nlong = \"n\"\nkind = \"u8\"\n"
    let declared : Flag := .scalar "n" none (.int .u8) (Number.zero .u8) ""
    let given : Flag := { declared with
      value := .scalar (.int .u8) (⟨5, by decide, by decide⟩ : Number .u8) }
    ∃ m r r', Manifest.ofText text = .ok m ∧ m.build 1 = .ok r ∧
      r.parse ["--n", "5"] = (r', .ok ()) ∧ r'.global.findLong "n" = some 1 ∧
      r'.global.flags[1]? = some given ∧ given.value.toJson = .int 5 ∧
      (Report.ofRegistry r').at? ["global", "flags", "n"] = some (.int 0) := by
  intro text declared given
  have hrun : ((Manifest.ofText text).toOption.bind fun m => (m.build 1).toOption.bind fun r =>
      (r.parse ["--n", "5"]).2.toOption.map fun _ => (r.parse ["--n", "5"]).1.global.flags) =
        some [.scalar "help" none .bool false "Print this help message", given, declared] := by
    decide +kernel
  obtain ⟨m, hm, hrun⟩ := Option.bind_eq_some_iff.mp hrun
  obtain ⟨r, hbuild, hrun⟩ := Option.bind_eq_some_iff.mp hrun
  obtain ⟨_, hresult, hflags⟩ := Option.map_eq_some_iff.mp hrun
  rw [toOption_eq_some_iff] at hm hbuild hresult
  obtain ⟨r', hparse⟩ : ∃ r', r.parse ["--n", "5"] = (r', .ok ()) := ⟨_, Prod.ext rfl hresult⟩
  rw [hparse] at hflags
  have hfind : r'.global.findLong "n" = some 1 := by
    unfold Scope.findLong
    rw [hflags]
    decide
  have hgiven : r'.global.flags[1]? = some given := by rw [hflags]; rfl
  have hdeclared : r'.global.flags[2]? = some declared := by rw [hflags]; rfl
  obtain ⟨j, g, hlast, hg, hentry, _⟩ := report_at_long hbuild hparse .global hfind hgiven
  have hj : j = 2 := by
    have hlt : j < r'.global.flags.length := (List.getElem?_eq_some_iff.mp hg).1
    rw [hflags] at hlt
    by_contra hne
    exact hlast.2 2 (by simp at hlt; omega) declared hdeclared rfl
  subst hj
  obtain rfl := Option.some.inj (hdeclared.symm.trans hg)
  exact ⟨m, r, r', hm, hbuild, hparse, hfind, hgiven, rfl, hentry⟩

end Registry

end CommandLine

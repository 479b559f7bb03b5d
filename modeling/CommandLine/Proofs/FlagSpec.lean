import CommandLine.Manifest.Build
import CommandLine.Proofs.Failures
import CommandLine.Proofs.Literal

/-!
# Flags of a manifest

What a flag in a manifest describes, without reference to how it is declared.

1. `Kind.StandsFor` says which values of a document stand for a value of a kind. These are the ones
   that `Kind.ofDefault` converts (`ofDefault_eq_ok_iff`).
2. `FlagSpec.Describes` says what the declared flag is like. `FlagSpec.flag` is that flag, or there
   is none because the default does not fit (`flag_eq_ok`, `exists_flag_iff`).
3. Declaring a flag of a manifest is adding that flag (`Manifest.declareFlag_eq`).
-/

namespace CommandLine

/-! ## Defaults -/

/-- A value in a document stands for a value of a kind: a boolean and a string for themselves, an
integer for the number that it is, and a string also for the number that it is a literal of. -/
inductive Kind.StandsFor : (k : Kind) → Toml.Value → k.Carrier → Prop
  | boolean (b : Bool) : StandsFor .bool (.boolean b) b
  | string (text : String) : StandsFor .string (.string text) text
  | integer {t : IntKind} (n : Number t) : StandsFor (.int t) (.integer n.val) n
  | literal {t : IntKind} {text : String} {n : Number t}
      (hread : Numeral.read? text = some n.val) : StandsFor (.int t) (.string text) n

theorem IntKind.ofDefault?_eq_some_iff {t : IntKind} {v : Toml.Value} {x : Number t} :
    t.ofDefault? v = some x ↔ Kind.StandsFor (.int t) v x := by
  constructor
  · intro h
    cases v with
    | integer n =>
      obtain rfl := Number.ofInt?_eq_some_iff.mp h
      exact .integer x
    | string text =>
      obtain ⟨n, hread, hn⟩ := Option.bind_eq_some_iff.mp h
      obtain rfl := Number.ofInt?_eq_some_iff.mp hn
      exact .literal hread
    | _ => cases h
  · rintro (_ | _ | _ | hread)
    · exact Number.ofInt?_eq_some_iff.mpr rfl
    · exact Option.bind_eq_some_iff.mpr ⟨x.val, hread, Number.ofInt?_eq_some_iff.mpr rfl⟩

/-- A default is converted exactly if it stands for a value, and to that value. -/
theorem Kind.ofDefault_eq_ok_iff {k : Kind} {v : Toml.Value} {x : k.Carrier} :
    k.ofDefault v = .ok x ↔ k.StandsFor v x := by
  cases k with
  | bool =>
    constructor
    · intro h
      cases v with
      | boolean b =>
        cases h
        exact .boolean _
      | _ => cases h
    · rintro ⟨⟩
      rfl
  | string =>
    constructor
    · intro h
      cases v with
      | string text =>
        cases h
        exact .string _
      | _ => cases h
    · rintro ⟨⟩
      rfl
  | int t =>
    rw [← IntKind.ofDefault?_eq_some_iff]
    rcases h : t.ofDefault? v with _ | n <;> simp [Kind.ofDefault, h]

namespace FlagSpec

/-- The default of a single value, if there is one, stands for a value of the kind. -/
def DefaultFits (spec : FlagSpec) : Prop :=
  spec.list = false → ∀ v, spec.default = some v → ∃ x, spec.kind.StandsFor v x

/-- What a flag starts at: a list is empty, and a single value is the one that the manifest gives,
or else the zero of its kind. -/
inductive StartsAt (spec : FlagSpec) : Value → Prop
  | list (hlist : spec.list = true) : StartsAt spec (.list (.empty spec.kind))
  | zero (hlist : spec.list = false) (hnone : spec.default = none) :
      StartsAt spec (.scalar spec.kind spec.kind.zero)
  | given {v : Toml.Value} {x : spec.kind.Carrier} (hlist : spec.list = false)
      (hsome : spec.default = some v) (hx : spec.kind.StandsFor v x) :
      StartsAt spec (.scalar spec.kind x)

/-- A declared flag is as a manifest describes it. An empty long name is none. -/
structure Describes (spec : FlagSpec) (f : Flag) : Prop where
  long_eq : f.long = spec.longName?
  short_eq : f.short = spec.short
  kind_eq : f.kind = spec.kind
  isList_eq : f.isList = spec.list
  description_eq : f.description = spec.description
  startsAt : spec.StartsAt f.default
  value_eq : f.value = f.default
  displayName_eq : f.displayName = spec.label

/-- Whether the flag has a name to be given by. -/
def isNamed (spec : FlagSpec) : Bool := spec.longName?.isSome || spec.short.isSome

/-- The flag to declare, or why the default is not one for it. -/
def flag (spec : FlagSpec) : Except DefaultMismatch Flag :=
  let long := spec.long.getD ""
  if spec.list then .ok (.list long spec.short spec.kind spec.description)
  else (Manifest.defaultOf spec).map fun default =>
    .scalar long spec.short spec.kind default spec.description

theorem nonEmpty?_long (spec : FlagSpec) : nonEmpty? (spec.long.getD "") = spec.longName? := by
  unfold nonEmpty? longName?
  rcases spec.long with _ | long
  · rfl
  · cases h : long.isEmpty <;> simp [Option.filter, h]

theorem displayName_eq_label {spec : FlagSpec} {f : Flag} (hlong : f.long = spec.longName?)
    (hshort : f.short = spec.short) : f.displayName = spec.label := by
  obtain ⟨long, short, _, _, _⟩ := f
  obtain rfl : long = spec.longName? := hlong
  obtain rfl : short = spec.short := hshort
  rfl

theorem describes_list {spec : FlagSpec} (hlist : spec.list = true) :
    spec.Describes (.list (spec.long.getD "") spec.short spec.kind spec.description) where
  long_eq := spec.nonEmpty?_long
  short_eq := rfl
  kind_eq := rfl
  isList_eq := hlist.symm
  description_eq := rfl
  startsAt := .list hlist
  value_eq := rfl
  displayName_eq := displayName_eq_label spec.nonEmpty?_long rfl

theorem describes_scalar {spec : FlagSpec} (hlist : spec.list = false) {x : spec.kind.Carrier}
    (hx : spec.StartsAt (.scalar spec.kind x)) :
    spec.Describes (.scalar (spec.long.getD "") spec.short spec.kind x spec.description) where
  long_eq := spec.nonEmpty?_long
  short_eq := rfl
  kind_eq := rfl
  isList_eq := hlist.symm
  description_eq := rfl
  startsAt := hx
  value_eq := rfl
  displayName_eq := displayName_eq_label spec.nonEmpty?_long rfl

theorem flag_eq_ok {spec : FlagSpec} {f : Flag} (h : spec.flag = .ok f) : spec.Describes f := by
  unfold flag at h
  cases hlist : spec.list with
  | true =>
    simp only [hlist, if_true] at h
    cases h
    exact describes_list hlist
  | false =>
    simp only [hlist, Bool.false_eq_true, if_false, Manifest.defaultOf] at h
    split at h
    · rename_i v hv
      rcases hx : spec.kind.ofDefault v with reason | x
      · rw [hx] at h
        cases h
      · rw [hx] at h
        cases h
        exact describes_scalar hlist (.given hlist hv (Kind.ofDefault_eq_ok_iff.mp hx))
    · rename_i hv
      cases h
      exact describes_scalar hlist (.zero hlist hv)

/-- There is a flag to declare exactly if the default fits. -/
theorem exists_flag_iff {spec : FlagSpec} : (∃ f, spec.flag = .ok f) ↔ spec.DefaultFits := by
  constructor
  · rintro ⟨f, h⟩ hlist v hv
    have hstart := (flag_eq_ok h).startsAt
    generalize f.default = start at hstart
    cases hstart with
    | list hlist' => simp [hlist] at hlist'
    | zero _ hnone => simp [hv] at hnone
    | given _ hsome hx =>
      obtain rfl := Option.some.inj (hv.symm.trans hsome)
      exact ⟨_, hx⟩
  · intro hfits
    unfold flag
    cases hlist : spec.list with
    | true => exact ⟨_, rfl⟩
    | false =>
      simp only [Bool.false_eq_true, if_false, Manifest.defaultOf]
      split
      · rename_i v hv
        obtain ⟨x, hx⟩ := hfits hlist v hv
        rw [Kind.ofDefault_eq_ok_iff.mpr hx]
        exact ⟨_, rfl⟩
      · exact ⟨_, rfl⟩

theorem Describes.isNamed_eq {spec : FlagSpec} {f : Flag} (h : spec.Describes f) :
    f.isNamed = spec.isNamed := by
  unfold Flag.isNamed isNamed
  rw [h.long_eq, h.short_eq]

theorem validate_eq_ok_iff {spec : FlagSpec} :
    spec.validate = .ok () ↔
      spec.isNamed = true ∧ ¬ (spec.list = true ∧ spec.default.isSome = true) := by
  unfold validate isNamed
  cases spec.longName? <;> cases spec.short <;> cases spec.list <;> cases spec.default <;> simp

end FlagSpec

/-! ## Declaring a flag -/

theorem Manifest.built_declared {α : Type} (wrap : Error → BuildError) (r : Registry)
    (result : Except Error (Registry × α)) :
    built wrap (r.declared result) =
      (result.mapError fun e => .refused (wrap e)).map Prod.fst := by
  rcases result with e | ⟨r', a⟩ <;> rfl

/-- A flag of a manifest is converted and then added. -/
theorem Manifest.declareFlag_eq (r : Registry) (scope? : Option String) (spec : FlagSpec) :
    declareFlag r scope? spec =
      match spec.flag with
      | .error reason => .error (.refused (.flag spec.label (.default reason)))
      | .ok f => ((r.addFlag f scope?).mapError fun e =>
        .refused (.flag spec.label (.refused e))).map Prod.fst := by
  unfold declareFlag FlagSpec.flag
  cases spec.list with
  | true =>
    simp only [if_true, Registry.declareListFlag, built_declared]
    cases r.addFlag _ scope? <;> rfl
  | false =>
    simp only [Bool.false_eq_true, if_false]
    cases defaultOf spec with
    | error reason => rfl
    | ok default =>
      simp only [Except.map, Registry.declareFlag, built_declared]
      cases r.addFlag _ scope? <;> rfl

end CommandLine

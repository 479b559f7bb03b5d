import CommandLine.Proofs.Reachable

/-!
# Room for what is declared

A new registry asks for room for its table of names, and a positional argument for all the values
that it may have. Whether there can be as much depends on the configuration alone
(`Config.TableFits`, `Config.PositionalsFit`). If there can be, `startWithRoom` and
`declarePositionalWithRoom` are `start` and `declarePositional`; if not, they are stopped, except
that no room is asked for in a scope that is not declared.
-/

namespace CommandLine

theorem askRoom_of_fits {bytes count : Nat} (h : FitsMemory bytes count) :
    askRoom bytes count = .ok () := if_pos h

theorem askRoom_of_not_fits {bytes count : Nat} (h : ¬ FitsMemory bytes count) :
    askRoom bytes count = .error .overflow := if_neg h

/-- There can be room for the table of names. -/
def Config.TableFits (config : Config) : Prop :=
  FitsMemory NameTable.bucketBytes (max config.hashBuckets 1)

/-- There can be room for all positional values that the limit allows. -/
def Config.PositionalsFit (config : Config) : Prop :=
  FitsMemory Kind.string.bytes config.maxPositionals

instance (config : Config) : Decidable config.TableFits :=
  inferInstanceAs (Decidable (FitsMemory _ _))

instance (config : Config) : Decidable config.PositionalsFit :=
  inferInstanceAs (Decidable (FitsMemory _ _))

theorem Config.tableFits_iff {config : Config} :
    config.TableFits ↔ config.hashBuckets ≤ 1152921504606846975 := by
  simp only [TableFits, FitsMemory, NameTable.bucketBytes, maxBytes]
  omega

theorem Config.positionalsFit_iff {config : Config} :
    config.PositionalsFit ↔ config.maxPositionals ≤ 384307168202282325 := by
  simp only [PositionalsFit, FitsMemory, Kind.bytes, maxBytes]
  omega

namespace Registry

theorem startWithRoom_of_fits (id : Nat) (name description : String) {config : Config}
    (h : config.TableFits) :
    startWithRoom id name description config = .ok (start id name description config) := by
  unfold startWithRoom NameTable.withRoom
  rw [askRoom_of_fits h]
  rfl

theorem startWithRoom_of_not_fits (id : Nat) (name description : String) {config : Config}
    (h : ¬ config.TableFits) :
    startWithRoom id name description config = .error .overflow := by
  unfold startWithRoom NameTable.withRoom
  rw [askRoom_of_not_fits h]
  rfl

section Positional

variable {r : Registry} {name description : String} {scope? : Option String}

/-- Without a scope to declare it in, a positional argument is refused before room is asked for. -/
theorem declarePositionalWithRoom_of_error {e : Error}
    (h : r.addPositional name description scope? = .error e) :
    r.declarePositionalWithRoom name description scope? =
      .ok (r.declarePositional name description scope?) := by
  unfold declarePositionalWithRoom declarePositional
  rw [h]
  unfold addPositional at h
  rcases hid : r.scopeOf scope? with e' | id
  · rw [hid] at h
    cases h
    rfl
  · rcases hs : r.scope id with e' | s
    · rw [hid] at h
      simp only [bind, Except.bind, hs] at h
      cases h
      simp only [bind, Except.bind, hs, Except.map]
    · rw [hid] at h
      simp only [bind, Except.bind, hs] at h
      cases h

theorem declarePositionalWithRoom_of_fits (h : r.config.PositionalsFit) :
    r.declarePositionalWithRoom name description scope? =
      .ok (r.declarePositional name description scope?) := by
  rcases hadd : r.addPositional name description scope? with e | result
  · exact declarePositionalWithRoom_of_error hadd
  · obtain ⟨id, s, hid, hs, rfl⟩ := addPositional_eq_ok hadd
    unfold declarePositionalWithRoom declarePositional Scope.namePositionalWithRoom
      ValueList.withRoom
    rw [hadd, askRoom_of_fits h]
    simp only [hid, hs, bind, Except.bind, Except.map]
    rfl

theorem declarePositionalWithRoom_of_not_fits (h : ¬ r.config.PositionalsFit)
    {result : Registry × PositionalHandle}
    (hadd : r.addPositional name description scope? = .ok result) :
    r.declarePositionalWithRoom name description scope? = .error .overflow := by
  obtain ⟨id, s, hid, hs, rfl⟩ := addPositional_eq_ok hadd
  unfold declarePositionalWithRoom Scope.namePositionalWithRoom ValueList.withRoom
  rw [askRoom_of_not_fits h]
  simp only [hid, hs, bind, Except.bind, Except.map]

/-- Unless it is stopped, the declaration does what it does where there is room. -/
theorem eq_of_declarePositionalWithRoom_eq_ok
    {result : Registry × Except Error PositionalHandle}
    (h : r.declarePositionalWithRoom name description scope? = .ok result) :
    result = r.declarePositional name description scope? := by
  by_cases hfits : r.config.PositionalsFit
  · rw [declarePositionalWithRoom_of_fits hfits] at h
    exact (Except.ok.inj h).symm
  · rcases hadd : r.addPositional name description scope? with e | added
    · rw [declarePositionalWithRoom_of_error hadd] at h
      exact (Except.ok.inj h).symm
    · rw [declarePositionalWithRoom_of_not_fits hfits hadd] at h
      cases h

end Positional

end Registry

end CommandLine

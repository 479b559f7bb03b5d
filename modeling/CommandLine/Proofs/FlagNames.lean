import CommandLine.Proofs.Frame
import CommandLine.Proofs.Invariant

/-!
# Names of flags

A flag that is declared with an empty long name has none. So no flag of a reachable registry has the
empty long name (`Reachable.hasLongNames`), and what stands after the dashes of `--` never names a
flag: a long name that is found in a scope is given by the token that is made of it
(`Scope.HasLongNames.resolves`).

A flag is shown under its long name, or else under its short one. Given as a token, what is shown
names the flag, if no earlier flag has the name. Only a dash as a short name is shown as the
separator, and cannot be given (`displayName_answers`).
-/

namespace CommandLine

theorem nonEmpty?_ne_some_empty (text : String) : nonEmpty? text ≠ some "" := by
  unfold nonEmpty?
  split
  · simp
  · rename_i hne
    intro h
    rw [Option.some.inj h] at hne
    exact hne rfl

namespace Scope

/-- The long names of the flags are not empty. -/
def HasLongNames (s : Scope) : Prop := ∀ f ∈ s.flags, f.long ≠ some ""

theorem HasLongNames.addFlag {s : Scope} {flag : Flag} (h : s.HasLongNames)
    (hflag : flag.long ≠ some "") :
    ({ s with flags := s.flags ++ [flag] } : Scope).HasLongNames := by
  intro f hf
  rcases List.mem_append.mp hf with hf | hf
  · exact h f hf
  · rw [List.mem_singleton.mp hf]
    exact hflag

/-- The long names are those of the declarations. -/
theorem HasLongNames.congr {s s' : Scope} (h : s.HasLongNames)
    (hs : s'.declarations = s.declarations) : s'.HasLongNames := by
  intro f' hf'
  obtain ⟨index, hindex⟩ := List.getElem?_of_mem hf'
  obtain ⟨f, hf, hclear⟩ := exists_flag_of_declarations_eq hs.symm hindex
  rw [← Flag.long_eq_of_cleared_eq hclear]
  exact h f (List.mem_of_getElem? hf)

theorem HasLongNames.resolves {s : Scope} (h : s.HasLongNames) {name : String} {index : Nat}
    (hfind : s.findLong name = some index) : s.Resolves ("--" ++ name) index := by
  have hfirst := findLong_eq_some_iff.mp hfind
  refine .long ?_ hfirst
  rintro rfl
  obtain ⟨⟨f, hf, hlong⟩, _⟩ := hfirst
  exact h f (List.mem_of_getElem? hf) hlong

end Scope

namespace Registry

/-- The long names of the flags in all scopes are not empty. -/
def HasLongNames (r : Registry) : Prop := ∀ id s, r.scope id = .ok s → s.HasLongNames

section Operations

variable {r : Registry}

theorem HasLongNames.declared_addFlag {α : Type} (h : r.HasLongNames) {flag : Flag}
    (hflag : flag.long ≠ some "") (scope? : Option String) (mk : ScopeId → Nat → α) :
    (r.declared ((r.addFlag flag scope?).map
      fun (r', id, index) => (r', mk id index))).1.HasLongNames := by
  rcases hadd : r.addFlag flag scope? with e | ⟨r', id, index⟩
  · exact h
  · obtain ⟨_, _, s, hs, _, _, rfl⟩ := addFlag_eq_ok hadd
    exact forall_scope_setScope h hs ((h id s hs).addFlag hflag)

theorem HasLongNames.declareHelp (h : r.HasLongNames) (scope? : Option String) :
    (r.declareHelp scope?).HasLongNames := by
  have hflag : (r.declareFlag "help" none .bool false "Print this help message"
      scope?).1.HasLongNames := h.declared_addFlag (nonEmpty?_ne_some_empty "help") scope? _
  unfold Registry.declareHelp
  split
  · rename_i r' handle heq
    rw [heq] at hflag
    exact hflag
  · rename_i r' e heq
    rw [heq] at hflag
    exact hflag

theorem HasLongNames.declareSubcommand (h : r.HasLongNames) (name description : String) :
    (r.declareSubcommand name description).1.HasLongNames := by
  rcases r.declareSubcommand_cases name description with ⟨_, heq⟩ | ⟨_, ⟨_, heq⟩ |
    ⟨slot, names, _, _, heq⟩ | ⟨names, _, heq⟩⟩
  · rw [heq]
    exact h
  · rw [heq]
    exact h
  · rw [heq]
    exact h
  · rw [heq]
    refine HasLongNames.declareHelp (fun id s hs => ?_) (some name)
    rcases scope_append_subcommand hs with hs | rfl
    · exact h id s hs
    · exact fun f hf => absurd hf List.not_mem_nil

theorem HasLongNames.declarePositional (h : r.HasLongNames) (name description : String)
    (scope? : Option String) : (r.declarePositional name description scope?).1.HasLongNames := by
  unfold Registry.declarePositional
  rcases hadd : r.addPositional name description scope? with e | ⟨r', handle⟩
  · exact h
  · obtain ⟨id, s, _, hs, heq⟩ := addPositional_eq_ok hadd
    cases heq
    exact forall_scope_setScope h hs (h id s hs)

theorem HasLongNames.parse (h : r.HasLongNames) (args : List String) :
    (r.parse args).1.HasLongNames := by
  intro id s' hs'
  obtain ⟨s, items, hs, _, rfl⟩ := (r.readsInto_parse args).scope id s' hs'
  exact (h id s hs).congr (s.declarations_afterAll items)

theorem HasLongNames.perform (h : r.HasLongNames) (operation : Operation) :
    (r.perform operation).HasLongNames := by
  cases operation with
  | declareFlag long short k default description scope? =>
    exact h.declared_addFlag (nonEmpty?_ne_some_empty long) scope? _
  | declareListFlag long short k description scope? =>
    exact h.declared_addFlag (nonEmpty?_ne_some_empty long) scope? _
  | declareSubcommand name description => exact h.declareSubcommand name description
  | declarePositional name description scope? => exact h.declarePositional name description scope?
  | parse args => exact h.parse args
  | lastError => exact h
  | clearError => exact h

end Operations

/-- No flag of a reachable registry has the empty long name. -/
theorem Reachable.hasLongNames {r : Registry} (hr : r.Reachable) : r.HasLongNames := by
  induction hr with
  | start id name description config =>
    refine HasLongNames.declareHelp (fun id' s hs => ?_) none
    rw [eq_empty_of_scope_blank hs]
    exact fun f hf => absurd hf List.not_mem_nil
  | perform _ operation ih => exact ih.perform operation

end Registry

/-! ## Names that are shown -/

/-- The flag at an index is the first one of a scope with its long name or, if it has none, with its
short name. -/
inductive Scope.IsFirstByName (s : Scope) (f : Flag) (index : Nat) : Prop
  | long {name : String} (hlong : f.long = some name)
      (hfirst : s.IsFirst (·.long = some name) index)
  | short {c : Char} (hlong : f.long = none) (hshort : f.short = some c)
      (hfirst : s.IsFirst (·.short = some c) index)

namespace Flag

theorem displayName_of_long {f : Flag} {name : String} (h : f.long = some name) :
    f.displayName = "--" ++ name := by
  unfold displayName
  rw [h]

theorem displayName_of_short {f : Flag} {c : Char} (hlong : f.long = none)
    (hshort : f.short = some c) : f.displayName = String.ofList ['-', c] := by
  unfold displayName
  rw [hlong, hshort]

end Flag

/-- A first flag is shown under a token that names it, or it is the flag of a lone dash. -/
theorem Scope.IsFirstByName.resolves_or {s : Scope} {f : Flag} {index : Nat}
    (h : s.IsFirstByName f index) (hnames : s.HasLongNames) :
    s.Resolves f.displayName index ∨ f.long = none ∧ f.short = some '-' := by
  cases h with
  | long hlong hfirst =>
    rw [Flag.displayName_of_long hlong]
    exact .inl (hnames.resolves (findLong_eq_some_iff.mpr hfirst))
  | @short c hlong hshort hfirst =>
    by_cases hdash : c = '-'
    · exact .inr ⟨hlong, hshort.trans (congrArg some hdash)⟩
    · rw [Flag.displayName_of_short hlong hshort]
      exact .inl (.short hdash hfirst)

namespace Registry

/-- **Names that are shown.** In a scope of a reachable registry, a flag that is the first with its
name is found under what is shown for it, and a step at this token reads the flag. The exception is
a flag with no long name and a dash for a short one: it is shown as the separator, which a step
skips. -/
theorem displayName_answers {r : Registry} (hr : r.Reachable) {id : ScopeId} {s : Scope}
    (hs : r.scope id = .ok s) {index : Nat} {f : Flag} (hf : s.flags[index]? = some f)
    (hfirst : s.IsFirstByName f index) :
    (¬ (f.long = none ∧ f.short = some '-') →
        ((∃ name, Token.classify f.displayName = .long name ∧ s.findLong name = some index) ∨
          ∃ c, Token.classify f.displayName = .short c ∧ s.findShort c = some index) ∧
        ∀ limit rest, s.step limit f.displayName rest =
          (f.consume rest).map fun (v, used) => (s.setValue index v, used)) ∧
      (f.long = none ∧ f.short = some '-' →
        Token.classify f.displayName = .separator ∧
          ∀ limit rest, s.step limit f.displayName rest = .ok (s, 0)) := by
  constructor
  · intro hother
    have hresolves := (hfirst.resolves_or (hr.hasLongNames id s hs)).resolve_right hother
    exact ⟨Scope.resolves_iff.mp hresolves, fun _ _ => Scope.step_of_resolves hresolves hf⟩
  · rintro ⟨hlong, hshort⟩
    rw [Flag.displayName_of_short hlong hshort]
    exact ⟨rfl, fun _ _ => rfl⟩

/-- A registry with a flag for a lone dash, one whose long name is dashes, and one with a short name
only. -/
def sampleOfDashes : Registry :=
  (start 1 "press" "" {}).performAll
    [.declareFlag "" (some '-') .bool false "" none,
      .declareListFlag "--" (some '-') .string "" none,
      .declareFlag "" (some 'é') .string "" "" none]

theorem reachable_sampleOfDashes : sampleOfDashes.Reachable := .performAll (.start ..) _

/-- A flag that is the first with its short name need not be found under what is shown for it. -/
theorem not_forall_displayName_answers :
    ¬ ∀ (r : Registry) (id : ScopeId) (s : Scope) (index : Nat) (f : Flag), r.Reachable →
      r.scope id = .ok s → s.flags[index]? = some f → s.IsFirstByName f index →
      (∃ name, Token.classify f.displayName = .long name ∧ s.findLong name = some index) ∨
        ∃ c, Token.classify f.displayName = .short c ∧ s.findShort c = some index := by
  intro h
  have hflag : sampleOfDashes.global.flags[1]? = some (.scalar "" (some '-') .bool false "") := by
    decide +kernel
  have hfind : sampleOfDashes.global.findShort '-' = some 1 := by decide +kernel
  have hshape : Token.classify (Flag.scalar "" (some '-') .bool false "").displayName =
      .separator := by decide +kernel
  have hfirst : sampleOfDashes.global.IsFirstByName (.scalar "" (some '-') .bool false "") 1 :=
    .short rfl rfl (Scope.findShort_eq_some_iff.mp hfind)
  rcases h _ .global _ 1 _ reachable_sampleOfDashes rfl hflag hfirst with
    ⟨name, hname, _⟩ | ⟨c, hc, _⟩
  · cases hshape.symm.trans hname
  · cases hshape.symm.trans hc

theorem displayName_answers_sample :
    sampleOfDashes.global.step 2 "----" ["a", "b", "-é"] =
        .ok (sampleOfDashes.global.setValue 2 (.list ⟨.string, ["a", "b"]⟩), 2) ∧
      sampleOfDashes.global.step 2 "--" ["a"] = .ok (sampleOfDashes.global, 0) := by
  have hdashes : sampleOfDashes.global.flags[2]? = some (.list "--" (some '-') .string "") := by
    decide +kernel
  have hlone : sampleOfDashes.global.flags[1]? = some (.scalar "" (some '-') .bool false "") := by
    decide +kernel
  have hname : (Flag.list "--" (some '-') .string "").long = some "--" := rfl
  have hlong : sampleOfDashes.global.findLong "--" = some 2 := by decide +kernel
  have hshort : sampleOfDashes.global.findShort '-' = some 1 := by decide +kernel
  have hscope : sampleOfDashes.scope .global = .ok sampleOfDashes.global := rfl
  have hfound := displayName_answers reachable_sampleOfDashes hscope hdashes
    (.long hname (Scope.findLong_eq_some_iff.mp hlong))
  have hskipped := displayName_answers reachable_sampleOfDashes hscope hlone
    (.short rfl rfl (Scope.findShort_eq_some_iff.mp hshort))
  refine ⟨(hfound.1 ?_).2 2 ["a", "b", "-é"], (hskipped.2 ⟨rfl, rfl⟩).2 2 ["a"]⟩
  rw [hname]
  simp

end Registry

end CommandLine

import CommandLine.Proofs.Declarations
import CommandLine.Proofs.Growth

/-!
# The last failure of a registry

When a host finds the error slot of a registry empty.

1. `Fails` says that an operation comes back with a failure. An operation that does not fail leaves
   the slot as it is, with one exception: a help flag for which there is no room is left out, and
   that goes to the slot although the operation succeeds (`lastErrorKind_perform`).
2. The exception needs a limit of no flags at all, since the scope of a help flag is new. So under
   any other limit the slot is empty exactly if nothing failed since it was new or last cleared
   (`lastErrorKind_eq_none_iff`).
-/

namespace CommandLine

/-- A slot that was offered a failure holds one. -/
theorem ErrorSlot.kind_recordFirst_ne_none (s : ErrorSlot) (e : Error) :
    (s.recordFirst e).kind ≠ none := by
  unfold recordFirst
  split
  · exact Option.some_ne_none _
  · rename_i hpending
    intro hnone
    rw [isClear, hnone] at hpending
    exact hpending rfl

theorem ErrorSlot.kind_message (s : ErrorSlot) : s.message.2.kind = s.kind := by
  unfold message
  dsimp only
  split <;> rfl

namespace Registry

/-! ## Failures that a host sees -/

/-- An operation comes back with a failure. -/
def Fails (r : Registry) : Operation → Prop
  | .declareFlag long short k default description scope? =>
    ∃ e, (r.declareFlag long short k default description scope?).2 = .error e
  | .declareListFlag long short k description scope? =>
    ∃ e, (r.declareListFlag long short k description scope?).2 = .error e
  | .declareSubcommand name description => ∃ e, (r.declareSubcommand name description).2 = .error e
  | .declarePositional name description scope? =>
    ∃ e, (r.declarePositional name description scope?).2 = .error e
  | .parse args => ∃ e, (r.parse args).2 = .error e
  | .lastError | .clearError => False

/-- One of the operations, performed one by one, comes back with a failure. -/
def SomeFails (r : Registry) (operations : List Operation) : Prop :=
  ∃ before operation after, operations = before ++ operation :: after ∧
    (r.performAll before).Fails operation

theorem not_someFails_nil (r : Registry) : ¬ r.SomeFails [] := by
  rintro ⟨before, operation, after, hnil, _⟩
  cases before <;> cases hnil

theorem someFails_cons {r : Registry} {operation : Operation} {operations : List Operation} :
    r.SomeFails (operation :: operations) ↔
      r.Fails operation ∨ (r.perform operation).SomeFails operations := by
  constructor
  · rintro ⟨before, operation', after, heq, hfails⟩
    cases before with
    | nil =>
      obtain ⟨rfl, _⟩ := List.cons.inj heq
      exact .inl hfails
    | cons first before =>
      obtain ⟨rfl, rfl⟩ := List.cons.inj heq
      exact .inr ⟨before, operation', after, rfl, hfails⟩
  · rintro (hfails | ⟨before, operation', after, rfl, hfails⟩)
    · exact ⟨[], operation, operations, rfl, hfails⟩
    · exact ⟨operation :: before, operation', after, rfl, hfails⟩

/-! ## What operations do to the slot -/

theorem errors_setScope (r : Registry) (t : Scope) (id : ScopeId) :
    (r.setScope t id).errors = r.errors := by
  cases id <;> rfl

/-- Reading a command line does not touch the slot; only the parse around it does. -/
theorem errors_run (r : Registry) (args : List String) : (r.run args).1.errors = r.errors := by
  unfold run
  split
  · rfl
  · rename_i q id tokens hselect
    have hq : q.errors = r.errors := by
      rcases select_eq_ok hselect with ⟨rfl, _, _⟩ | ⟨first, slot, _, _, _, _, _, rfl, _⟩
      · rfl
      · rfl
    rcases q.feed_fst id tokens with h | ⟨s, h⟩
    · rw [h, hq]
    · rw [h, errors_setScope, hq]

theorem lastErrorKind_parse (r : Registry) (args : List String) :
    (r.parse args).1.lastErrorKind = none ↔
      r.lastErrorKind = none ∧ ¬ ∃ e, (r.parse args).2 = .error e := by
  have hfail : ∀ (q : Registry) (e : Error),
      (q.fail e : Registry × Except Error Unit).1.lastErrorKind = none ↔
        r.lastErrorKind = none ∧
          ¬ ∃ e', (q.fail e : Registry × Except Error Unit).2 = .error e' := by
    intro q e
    refine iff_of_false ?_ ?_
    · exact Option.some_ne_none _
    · rintro ⟨_, hnone⟩
      exact hnone ⟨e, rfl⟩
  unfold parse
  split
  · exact hfail _ _
  · dsimp only
    split
    · exact hfail _ _
    · have herrors := errors_run { r with parsed := true } args
      split
      · rename_i r' heq
        rw [heq] at herrors
        have hkind : r'.lastErrorKind = r.lastErrorKind := congrArg ErrorSlot.kind herrors
        rw [hkind]
        exact ⟨fun h => ⟨h, by rintro ⟨_, ⟨⟩⟩⟩, fun h => h.1⟩
      · exact hfail _ _

theorem EndsInScope.lastErrorKind_iff {α : Type} {r : Registry}
    {outcome : Registry × Except Error α} (h : r.EndsInScope outcome) :
    outcome.1.lastErrorKind = none ↔
      r.lastErrorKind = none ∧ ¬ ∃ e, outcome.2 = .error e := by
  cases h with
  | refused e =>
    refine iff_of_false (r.errors.kind_recordFirst_ne_none e) ?_
    rintro ⟨_, hnone⟩
    exact hnone ⟨e, rfl⟩
  | changed t id a =>
    have hkind : (r.setScope t id).lastErrorKind = r.lastErrorKind :=
      congrArg ErrorSlot.kind (errors_setScope r t id)
    rw [hkind]
    exact ⟨fun h => ⟨h, by rintro ⟨_, ⟨⟩⟩⟩, fun h => h.1⟩

/-- The help flag of an empty scope fails to go in exactly if no flags are allowed at all. -/
theorem lastErrorKind_declareHelp {r : Registry} {scope? : Option String} {id : ScopeId}
    (hid : r.scopeOf scope? = .ok id) (hs : r.scope id = .ok {}) :
    (r.declareHelp scope?).lastErrorKind = none ↔
      r.lastErrorKind = none ∧ r.config.maxFlags ≠ 0 := by
  by_cases hmax : r.config.maxFlags = 0
  · rw [declareHelp_of_full hid hs (by omega)]
    refine iff_of_false ?_ fun h => h.2 hmax
    exact r.errors.kind_recordFirst_ne_none _
  · rw [declareHelp_of_room hid hs (Nat.pos_of_ne_zero hmax)]
    have hkind : (r.setScope { flags := [helpFlag] } id).errors = r.errors := errors_setScope _ _ _
    show (r.setScope { flags := [helpFlag] } id).errors.kind = none ↔ _
    rw [hkind]
    exact ⟨fun h => ⟨h, hmax⟩, fun h => h.1⟩

theorem lastErrorKind_declareSubcommand {r : Registry} (hnames : NamesAgree r)
    (name description : String) :
    (r.declareSubcommand name description).1.lastErrorKind = none ↔ r.lastErrorKind = none ∧
      (¬ ∃ e, (r.declareSubcommand name description).2 = .error e) ∧ r.config.maxFlags ≠ 0 := by
  have hrefused : ∀ e, r.declareSubcommand name description = r.declared (.error e) →
      ((r.declareSubcommand name description).1.lastErrorKind = none ↔ r.lastErrorKind = none ∧
        (¬ ∃ e, (r.declareSubcommand name description).2 = .error e) ∧
        r.config.maxFlags ≠ 0) := by
    intro e heq
    rw [heq]
    refine iff_of_false ?_ ?_
    · exact r.errors.kind_recordFirst_ne_none e
    · rintro ⟨_, hnone, _⟩
      exact hnone ⟨e, rfl⟩
  rcases r.declareSubcommand_cases name description with ⟨_, heq⟩ | ⟨hroom, ⟨_, heq⟩ |
    ⟨slot, names, hinsert, hslot, _⟩ | ⟨names, hinsert, heq⟩⟩
  · exact hrefused _ heq
  · exact hrefused _ heq
  · exact absurd (hnames.slot_eq_length hinsert) hslot
  · -- the scope of the new subcommand is empty, so only a limit of no flags leaves no room in it
    obtain ⟨hid, hs⟩ := scopeOf_append_subcommand hnames hroom hinsert
    rw [heq]
    refine (lastErrorKind_declareHelp hid hs).trans ?_
    exact ⟨fun h => ⟨h.1, by rintro ⟨_, ⟨⟩⟩, h.2⟩, fun h => ⟨h.1, h.2.2⟩⟩

/-- An operation declares a subcommand, and with it the help flag of the subcommand. -/
def Operation.IsSubcommand (operation : Operation) : Prop :=
  ∃ name description, operation = .declareSubcommand name description

/-- After an operation the slot is empty if it was empty before and the operation does not fail,
unless it declares a subcommand where no flags are allowed. -/
theorem lastErrorKind_perform {r : Registry} (hnames : NamesAgree r) {operation : Operation}
    (hclear : operation ≠ .clearError) :
    (r.perform operation).lastErrorKind = none ↔ r.lastErrorKind = none ∧ ¬ r.Fails operation ∧
      (r.config.maxFlags = 0 → ¬ operation.IsSubcommand) := by
  have hother : ∀ {P : Prop}, ¬ operation.IsSubcommand →
      (P ↔ r.lastErrorKind = none ∧ ¬ r.Fails operation) →
      (P ↔ r.lastErrorKind = none ∧ ¬ r.Fails operation ∧
        (r.config.maxFlags = 0 → ¬ operation.IsSubcommand)) := by
    intro P hsub hiff
    rw [hiff]
    exact ⟨fun h => ⟨h.1, h.2, fun _ => hsub⟩, fun h => ⟨h.1, h.2.1⟩⟩
  cases operation with
  | declareFlag long short k default description scope? =>
    refine hother (by rintro ⟨_, _, ⟨⟩⟩) ?_
    exact (endsInScope_declared_addFlag r _ scope? _).lastErrorKind_iff
  | declareListFlag long short k description scope? =>
    refine hother (by rintro ⟨_, _, ⟨⟩⟩) ?_
    exact (endsInScope_declared_addFlag r _ scope? _).lastErrorKind_iff
  | declareSubcommand name description =>
    refine (lastErrorKind_declareSubcommand hnames name description).trans ?_
    have hsub : (Operation.declareSubcommand name description).IsSubcommand :=
      ⟨name, description, rfl⟩
    exact ⟨fun h => ⟨h.1, h.2.1, fun hmax => absurd hmax h.2.2⟩,
      fun h => ⟨h.1, h.2.1, fun hmax => h.2.2 hmax hsub⟩⟩
  | declarePositional name description scope? =>
    refine hother (by rintro ⟨_, _, ⟨⟩⟩) ?_
    exact (r.endsInScope_declarePositional name description scope?).lastErrorKind_iff
  | parse args =>
    refine hother (by rintro ⟨_, _, ⟨⟩⟩) ?_
    exact r.lastErrorKind_parse args
  | lastError =>
    refine hother (by rintro ⟨_, _, ⟨⟩⟩) ?_
    show r.errors.message.2.kind = none ↔ _
    rw [ErrorSlot.kind_message]
    exact ⟨fun h => ⟨h, not_false⟩, fun h => h.1⟩
  | clearError => exact absurd rfl hclear

/-! ## Histories -/

theorem lastErrorKind_performAll {r : Registry} (hr : r.Reachable) {operations : List Operation}
    (hclear : .clearError ∉ operations) :
    (r.performAll operations).lastErrorKind = none ↔ r.lastErrorKind = none ∧
      ¬ r.SomeFails operations ∧
      (r.config.maxFlags = 0 → ∀ operation ∈ operations, ¬ operation.IsSubcommand) := by
  induction operations generalizing r with
  | nil => simp [performAll, not_someFails_nil]
  | cons operation operations ih =>
    rw [List.mem_cons, not_or] at hclear
    have hconfig : (r.perform operation).config = r.config :=
      config_eq_of_changes (perform_changes r operation)
    show ((r.perform operation).performAll operations).lastErrorKind = none ↔ _
    rw [ih (hr.perform operation) hclear.2, hconfig,
      lastErrorKind_perform hr.names_agree (Ne.symm hclear.1), someFails_cons, not_or]
    simp only [List.forall_mem_cons, imp_and]
    constructor
    · rintro ⟨⟨hkind, hfails, hsub⟩, hfails', hsub'⟩
      exact ⟨hkind, ⟨hfails, hfails'⟩, hsub, hsub'⟩
    · rintro ⟨hkind, ⟨hfails, hfails'⟩, hsub, hsub'⟩
      exact ⟨⟨hkind, hfails, hsub⟩, hfails', hsub'⟩

theorem lastErrorKind_start (id : Nat) (name description : String) (config : Config) :
    (start id name description config).lastErrorKind = none ↔ config.maxFlags ≠ 0 := by
  have hglobal : ({
      id := id
      name := nonEmpty? name
      description := nonEmpty? description
      config := config } : Registry).scopeOf none = .ok .global := rfl
  exact (lastErrorKind_declareHelp hglobal rfl).trans ⟨fun h => h.2, fun h => ⟨rfl, h⟩⟩

/-- **The last failure.** The slot of a registry is empty exactly if no operation came back with a
failure since the registry was new or last cleared, provided that its scopes may have flags. Where
no flags are allowed, the slot is not empty either if the registry was never cleared, because of its
own help flag, or if a subcommand was declared since, because of the help flag of the subcommand. -/
theorem lastErrorKind_eq_none_iff (id : Nat) (name description : String) (config : Config) :
    let r := start id name description config
    (∀ operations, .clearError ∉ operations →
        ((r.performAll operations).lastErrorKind = none ↔
          ¬ r.SomeFails operations ∧ config.maxFlags ≠ 0)) ∧
      ∀ before after, .clearError ∉ after →
        ((r.performAll (before ++ .clearError :: after)).lastErrorKind = none ↔
          ¬ (r.performAll (before ++ [.clearError])).SomeFails after ∧
            (config.maxFlags = 0 → ∀ sub text, .declareSubcommand sub text ∉ after)) := by
  intro r
  have hr : r.Reachable := .start id name description config
  have hconfig : ∀ operations, (r.performAll operations).config = config := fun operations =>
    (config_performAll r operations).trans (config_start id name description config)
  constructor
  · intro operations hclear
    have hstart : r.lastErrorKind = none ↔ config.maxFlags ≠ 0 :=
      lastErrorKind_start id name description config
    rw [lastErrorKind_performAll hr hclear, hstart, show r.config = config from hconfig []]
    constructor
    · rintro ⟨hmax, hfails, _⟩
      exact ⟨hfails, hmax⟩
    · rintro ⟨hfails, hmax⟩
      exact ⟨hmax, hfails, fun h => absurd h hmax⟩
  · intro before after hclear
    have hsplit : before ++ .clearError :: after = (before ++ [.clearError]) ++ after := by simp
    have hempty : (r.performAll (before ++ [.clearError])).lastErrorKind = none := by
      rw [performAll_append]
      rfl
    rw [hsplit, performAll_append, lastErrorKind_performAll (hr.performAll _) hclear, hconfig]
    constructor
    · rintro ⟨_, hfails, hsub⟩
      exact ⟨hfails, fun hmax sub text hmem => hsub hmax _ hmem ⟨sub, text, rfl⟩⟩
    · rintro ⟨hfails, hsub⟩
      refine ⟨hempty, hfails, fun hmax operation hmem => ?_⟩
      rintro ⟨sub, text, rfl⟩
      exact hsub hmax sub text hmem

/-- Where no flags are allowed, the slot of a new registry is not empty, although nothing failed. -/
theorem not_lastErrorKind_eq_none_iff_someFails :
    ¬ ∀ (config : Config) (operations : List Operation), .clearError ∉ operations →
      (((start 1 "press" "" config).performAll operations).lastErrorKind = none ↔
        ¬ (start 1 "press" "" config).SomeFails operations) := by
  intro h
  have hempty := (h { maxFlags := 0 } [] (by simp)).mpr (not_someFails_nil _)
  revert hempty
  decide +kernel

theorem lastErrorKind_eq_none_iff_sample :
    (¬ (start 1 "press" "" {}).SomeFails
        [.declareSubcommand "build" "", .lastError, .parse ["build", "--help"]]) ∧
      ((start 1 "press" "" {}).performAll [.parse ["--level"], .clearError]).SomeFails
        [.declareSubcommand "build" "", .parse ["build"]] ∧
      ((start 1 "press" "" { maxFlags := 0 }).performAll
        ([] ++ .clearError :: [.declareSubcommand "build" ""])).lastErrorKind ≠ none := by
  have hroom := lastErrorKind_eq_none_iff 1 "press" "" {}
  have hnone := lastErrorKind_eq_none_iff 1 "press" "" { maxFlags := 0 }
  refine ⟨?_, ?_, fun hempty => ?_⟩
  · exact ((hroom.1 _ (by simp)).mp (by decide +kernel)).1
  · by_contra hfails
    have hempty := (hroom.2 [.parse ["--level"]] _ (by simp)).mpr ⟨hfails, fun hmax => nomatch hmax⟩
    revert hempty
    decide +kernel
  · exact ((hnone.2 [] _ (by simp)).mp hempty).2 rfl "build" "" (by simp)

end Registry

end CommandLine

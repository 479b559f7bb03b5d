import CommandLine.Proofs.Declarations
import CommandLine.Proofs.Handles

/-!
# Readings after the first parse

A parse, whatever comes of it, is the last operation that changes what a host can read
(`performAll_readings_eq`). What was declared before keeps its values, because later operations keep
the registry (`performAll_keeps`). A help flag that is declared later was not given, and has a place
that no earlier flag has (`perform_addsHelp`), so it does not count as a request for help.
-/

namespace CommandLine.Registry

/-! ## Help flags -/

theorem isHelpRequested_iff {r : Registry} :
    r.isHelpRequested = true ↔ ∃ h ∈ r.helpFlags, r.get h = .ok true := by
  unfold isHelpRequested
  rw [List.any_eq_true]
  constructor
  · rintro ⟨h, hmem, hgiven⟩
    refine ⟨h, hmem, ?_⟩
    split at hgiven
    · rename_i given hget
      rw [hget, hgiven]
    · cases hgiven
  · rintro ⟨h, hmem, hget⟩
    exact ⟨h, hmem, by rw [hget]⟩

/-- The help flags stay, and at most one more is added, at a free place and not given. -/
def AddsHelp (r r' : Registry) : Prop :=
  r'.helpFlags = r.helpFlags ∨ ∃ h : FlagHandle .bool, r'.helpFlags = r.helpFlags ++ [h] ∧
    ¬ r.Taken (h.scope, h.index) ∧ r'.get h = .ok false

theorem helpFlags_setScope (r : Registry) (t : Scope) (id : ScopeId) :
    (r.setScope t id).helpFlags = r.helpFlags := by
  cases id <;> rfl

theorem EndsInScope.helpFlags_eq {α : Type} {r : Registry} {outcome : Registry × Except Error α}
    (h : r.EndsInScope outcome) : outcome.1.helpFlags = r.helpFlags := by
  cases h with
  | refused e => rfl
  | changed t id a => exact helpFlags_setScope r t id

theorem declareHelp_addsHelp (r : Registry) (scope? : Option String) :
    r.AddsHelp (r.declareHelp scope?) := by
  have hsame := (endsInScope_declared_addFlag r
    (.scalar "help" none .bool false "Print this help message") scope?
    fun id index => (⟨r.id, id, index⟩ : FlagHandle .bool)).helpFlags_eq
  unfold declareHelp
  split
  · rename_i r' h heq
    have hok : (r.declareFlag "help" none .bool false "Print this help message" scope?).2 = .ok h :=
      congrArg Prod.snd heq
    have hfree := (Gives.flag hok).not_taken rfl
    obtain ⟨id, s, hs, rfl, hr'⟩ := declared_addFlag_eq_ok hok
    obtain ⟨s', hs', hf⟩ := exists_flag_setScope hs
      (.scalar "help" none .bool false "Print this help message")
    obtain rfl : r' = _ := (congrArg Prod.fst heq).symm.trans hr'
    refine .inr ⟨_, ?_, hfree, ?_⟩
    · show (r.setScope _ id).helpFlags ++ _ = _
      rw [helpFlags_setScope]
    · exact get_of_flagAt (h := ⟨r.id, id, s.flags.length⟩)
        (flagAt_eq_ok (id_setScope _ _ _).symm hs' hf)
  · rename_i r' e heq
    obtain rfl : _ = r' := congrArg Prod.fst heq
    exact .inl hsame

theorem declareSubcommand_addsHelp (r : Registry) (name description : String) :
    r.AddsHelp (r.declareSubcommand name description).1 := by
  rcases r.declareSubcommand_cases name description with ⟨_, heq⟩ | ⟨_, ⟨_, heq⟩ |
    ⟨_, _, _, _, heq⟩ | ⟨names, _, heq⟩⟩
  · exact heq ▸ .inl rfl
  · exact heq ▸ .inl rfl
  · exact heq ▸ .inl rfl
  · rw [heq]
    generalize hadded : ({ r with
      names := names
      subcommands := r.subcommands ++ [{ name := name, description := description }] } :
        Registry) = added
    have hkeeps : r.Keeps added := hadded ▸ keeps_append rfl
    have hsame : added.helpFlags = r.helpFlags := by rw [← hadded]
    -- a place that is free once the subcommand is there was free before
    rcases added.declareHelp_addsHelp (some name) with hhelp | ⟨h', hhelp, hfree, hget⟩
    · exact .inl (hhelp.trans hsame)
    · exact .inr ⟨h', hsame ▸ hhelp, fun htaken => hfree (hkeeps.extends.taken htaken), hget⟩

/-- An operation adds at most one help flag. -/
theorem perform_addsHelp {r : Registry} (hnames : NamesAgree r) (operation : Operation) :
    r.AddsHelp (r.perform operation) := by
  cases operation with
  | declareFlag long short k default description scope? =>
    exact .inl (endsInScope_declared_addFlag r _ scope? _).helpFlags_eq
  | declareListFlag long short k description scope? =>
    exact .inl (endsInScope_declared_addFlag r _ scope? _).helpFlags_eq
  | declareSubcommand name description => exact r.declareSubcommand_addsHelp name description
  | declarePositional name description scope? =>
    exact .inl (r.endsInScope_declarePositional name description scope?).helpFlags_eq
  | parse args => exact .inl (sameDeclared_parse hnames args).helpFlags_eq
  | lastError => exact .inl rfl
  | clearError => exact .inl rfl

theorem taken_of_get_eq_ok {r : Registry} {k : Kind} {h : FlagHandle k} {x : k.Carrier}
    (hget : r.get h = .ok x) : r.Taken (h.scope, h.index) := by
  obtain ⟨f, hflag, _⟩ := bind_eq_ok.mp hget
  obtain ⟨_, _, hflag⟩ := bind_eq_ok.mp hflag
  obtain ⟨s, hs, hflag⟩ := bind_eq_ok.mp hflag
  split at hflag
  · rename_i f' hf
    exact ⟨s, f', hs, hf⟩
  · cases hflag

/-- The help flags are flags of the registry, each at a place of its own. -/
structure HelpApart (r : Registry) : Prop where
  taken : ∀ h ∈ r.helpFlags, r.Taken (h.scope, h.index)
  nodup : (r.helpFlags.map fun h => (h.scope, h.index)).Nodup

theorem HelpApart.step {r r' : Registry} (h : r.HelpApart) (hextends : r.Extends r')
    (hadds : r.AddsHelp r') : r'.HelpApart := by
  rcases hadds with hsame | ⟨help, hmore, hfree, hget⟩
  · refine ⟨fun help hmem => ?_, hsame ▸ h.nodup⟩
    rw [hsame] at hmem
    exact hextends.taken (h.taken help hmem)
  · refine ⟨fun help' hmem => ?_, ?_⟩
    · rw [hmore, List.mem_append, List.mem_singleton] at hmem
      rcases hmem with hmem | rfl
      · exact hextends.taken (h.taken help' hmem)
      · exact taken_of_get_eq_ok hget
    · rw [hmore, List.map_append, List.nodup_append]
      refine ⟨h.nodup, List.nodup_singleton _, fun place hplace place' hplace' => ?_⟩
      obtain ⟨help', hmem, rfl⟩ := List.mem_map.mp hplace
      obtain rfl : place' = (help.scope, help.index) := List.mem_singleton.mp hplace'
      intro heq
      rw [← heq] at hfree
      exact hfree (h.taken help' hmem)

theorem Reachable.helpApart {r : Registry} (hr : r.Reachable) : r.HelpApart := by
  induction hr with
  | start id name description config =>
    have hblank : ({ id, name := nonEmpty? name, description := nonEmpty? description, config } :
        Registry).HelpApart := ⟨fun h hmem => absurd hmem List.not_mem_nil, List.nodup_nil⟩
    exact hblank.step (keeps_of_edits (declareHelp_edits _ none)).extends
      (declareHelp_addsHelp _ none)
  | perform hr operation ih =>
    exact ih.step (perform_extends hr operation) (perform_addsHelp hr.names_agree operation)

/-- A flag that is there, and is no help flag, does not become one. -/
theorem ne_of_mem_helpFlags_performAll {r : Registry} (hr : r.Reachable) {place : ScopeId × Nat}
    (htaken : r.Taken place) (hne : ∀ help ∈ r.helpFlags, (help.scope, help.index) ≠ place)
    (operations : List Operation) :
    ∀ help ∈ (r.performAll operations).helpFlags, (help.scope, help.index) ≠ place := by
  induction operations generalizing r with
  | nil => exact hne
  | cons operation operations ih =>
    apply ih (hr.perform operation) ((perform_extends hr operation).taken htaken)
    intro help hmem
    rcases perform_addsHelp hr.names_agree operation with hsame | ⟨help', hmore, hfree, _⟩
    · exact hne help (hsame ▸ hmem)
    · rw [hmore, List.mem_append, List.mem_singleton] at hmem
      rcases hmem with hmem | rfl
      · exact hne help hmem
      · rintro rfl
        exact hfree htaken

/-- No help flag, earlier or later, has the place of a flag for which a handle was given. -/
theorem Gives.ne_of_mem_helpFlags {r : Registry} (hr : r.Reachable) {operation : Operation}
    {handle : Handle} (h : r.Gives operation handle) {place : ScopeId × Nat}
    (hplace : handle.place? = some place) (operations : List Operation) :
    ∀ help ∈ ((r.perform operation).performAll operations).helpFlags,
      (help.scope, help.index) ≠ place := by
  refine ne_of_mem_helpFlags_performAll (hr.perform operation) (h.taken hplace) ?_ operations
  intro help hmem heq
  -- the declaration adds no help flag, and those from before stand at other places
  obtain ⟨s, f, _, _, hr'⟩ := h.exists_setScope hplace
  rw [hr', helpFlags_setScope] at hmem
  exact h.not_taken hplace (heq ▸ hr.helpApart.taken help hmem)

/-! ## Readings -/

/-- Two registries read the same through a handle. -/
def SameReadings (r r' : Registry) : Handle → Prop
  | .value (.scalar _ h) => r'.get h = r.get h ∧ r'.defaultOf h = r.defaultOf h
  | .value (.list _ h) => r'.list h = r.list h
  | .subcommand h => r'.isActive h = r.isActive h
  | .positional h => r'.positionals h = r.positionals h

theorem Keeps.get_eq {r r' : Registry} (hkeeps : r.Keeps r') {k : Kind} {h : FlagHandle k}
    (htaken : r.Taken (h.scope, h.index)) : r'.get h = r.get h := by
  unfold get
  rw [hkeeps.flagAt_eq htaken]

theorem Keeps.sameReadings {r r' : Registry} (hkeeps : r.Keeps r') {operation : Operation}
    {handle : Handle} (h : r.Leads operation handle) : r.SameReadings r' handle := by
  cases h with
  | flag howner hs hf =>
    have hflag := hkeeps.flagAt_eq ⟨_, _, hs, hf⟩
    refine ⟨hkeeps.get_eq ⟨_, _, hs, hf⟩, ?_⟩
    unfold defaultOf
    rw [hflag]
  | list howner hs hf =>
    show r'.list _ = r.list _
    unfold Registry.list
    rw [hkeeps.flagAt_eq ⟨_, _, hs, hf⟩]
  | subcommand howner hname =>
    show r'.isActive _ = r.isActive _
    unfold isActive
    rw [hkeeps.id_eq, hkeeps.isSelected_eq]
  | positional howner hs =>
    obtain ⟨s', hs', _, hvalues⟩ := hkeeps.scope _ _ hs
    show r'.positionals _ = r.positionals _
    unfold positionals checkOwner
    rw [hkeeps.id_eq, hs, hs', ok_bind, ok_bind, hvalues]

theorem sameReadings_of_registry_ne {r r' : Registry} {handle : Handle}
    (h : handle.registry ≠ r.id) (hid : r'.id = r.id) : r.SameReadings r' handle := by
  have hdenies := denies_of_registry_ne h
  have hdenies' : r'.Denies handle := denies_of_registry_ne (hid ▸ h)
  match handle, hdenies, hdenies' with
  | .value (.scalar _ _), hd, hd' => exact ⟨hd'.1.trans hd.1.symm, hd'.2.trans hd.2.symm⟩
  | .value (.list _ _), hd, hd' => exact Eq.trans hd' (Eq.symm hd)
  | .subcommand _, hd, hd' => exact Eq.trans hd' (Eq.symm hd)
  | .positional _, hd, hd' => exact Eq.trans hd' (Eq.symm hd)

/-! ## After the first parse -/

theorem perform_keeps {r : Registry} (hparsed : r.parsed = true) (operation : Operation) :
    r.Keeps (r.perform operation) :=
  performAll_keeps hparsed [operation]

theorem isHelpRequested_perform {r : Registry} (hr : r.Reachable) (hparsed : r.parsed = true)
    (operation : Operation) : (r.perform operation).isHelpRequested = r.isHelpRequested := by
  have hkeeps := perform_keeps hparsed operation
  have hget : ∀ h ∈ r.helpFlags, (r.perform operation).get h = r.get h :=
    fun h hmem => hkeeps.get_eq (hr.helpApart.taken h hmem)
  rw [Bool.eq_iff_iff, isHelpRequested_iff, isHelpRequested_iff]
  constructor
  · rintro ⟨h, hmem, hgiven⟩
    rcases perform_addsHelp hr.names_agree operation with hsame | ⟨help, hmore, _, hnot⟩
    · rw [hsame] at hmem
      exact ⟨h, hmem, (hget h hmem).symm.trans hgiven⟩
    · rw [hmore, List.mem_append, List.mem_singleton] at hmem
      rcases hmem with hmem | rfl
      · exact ⟨h, hmem, (hget h hmem).symm.trans hgiven⟩
      · cases hnot.symm.trans hgiven
  · rintro ⟨h, hmem, hgiven⟩
    refine ⟨h, ?_, (hget h hmem).trans hgiven⟩
    rcases perform_addsHelp hr.names_agree operation with hsame | ⟨help, hmore, _, _⟩
    · rwa [hsame]
    · rw [hmore]
      exact List.mem_append_left _ hmem

theorem isHelpRequested_performAll {r : Registry} (hr : r.Reachable) (hparsed : r.parsed = true)
    (operations : List Operation) :
    (r.performAll operations).isHelpRequested = r.isHelpRequested := by
  induction operations generalizing r with
  | nil => rfl
  | cons operation operations ih =>
    have hparsed' := (parsed_perform r operation).mpr (.inl hparsed)
    exact (ih (hr.perform operation) hparsed').trans (isHelpRequested_perform hr hparsed operation)

/-- A handle is one of those that operations gave, from a registry on. -/
def Gave (r : Registry) (operations : List Operation) (handle : Handle) : Prop :=
  ∃ before operation after, operations = before ++ operation :: after ∧
    (r.performAll before).Gives operation handle

theorem Gave.exists_leads {r : Registry} (hr : r.Reachable) {operations : List Operation}
    {handle : Handle} (h : r.Gave operations handle) :
    ∃ operation, (r.performAll operations).Leads operation handle := by
  obtain ⟨before, operation, after, rfl, hgives⟩ := h
  rw [performAll_append]
  exact ⟨operation, hgives.leads.extends
    (performAll_extends ((hr.performAll before).perform operation) after)⟩

/-- **Frozen readings.** Once a parse was called on a registry, with whatever result, no operations
that follow change what is read through a handle that there was, be it one that the registry gave or
one of another registry, nor whether help is requested. -/
theorem performAll_readings_eq (id : Nat) (name description : String) (config : Config)
    (before after : List Operation) (hparse : ∃ args, .parse args ∈ before) :
    let r := (start id name description config).performAll before
    (∀ handle, (start id name description config).Gave before handle ∨ handle.registry ≠ id →
        r.SameReadings (r.performAll after) handle) ∧
      (r.performAll after).isHelpRequested = r.isHelpRequested := by
  intro r
  have hstart := Reachable.start id name description config
  have hr : r.Reachable := hstart.performAll before
  have hparsed : r.parsed = true := (parsed_performAll _ before).mpr (.inr hparse)
  have hkeeps := performAll_keeps hparsed after
  have hid : r.id = id :=
    (performAll_extends hstart before).id_eq.trans (id_start id name description config)
  refine ⟨fun handle hhandle => ?_, isHelpRequested_performAll hr hparsed after⟩
  rcases hhandle with hgave | hforeign
  · obtain ⟨operation, hleads⟩ := hgave.exists_leads hstart
    exact hkeeps.sameReadings hleads
  · exact sameReadings_of_registry_ne (hid.symm ▸ hforeign) hkeeps.id_eq

theorem performAll_readings_eq_sample :
    let r := (start 1 "press" "" { hashBuckets := 1 }).performAll
      [.declareFlag "count" (some 'c') (.int .i32) (.zero .i32) "" none,
        .parse ["--count", "7", "--help", "x"]]
    let r' := r.performAll
      [.declareSubcommand "build" "", .declareFlag "count" none .string "" "" none,
        .declarePositional "FILE" "" none, .parse ["--count", "9"]]
    (r'.get (⟨1, .global, 1⟩ : FlagHandle (.int .i32))).map (·.val) = .ok 7 ∧
      r'.isHelpRequested = true := by
  intro r r'
  obtain ⟨hreadings, hhelp⟩ := performAll_readings_eq 1 "press" "" { hashBuckets := 1 }
    [.declareFlag "count" (some 'c') (.int .i32) (.zero .i32) "" none,
      .parse ["--count", "7", "--help", "x"]]
    [.declareSubcommand "build" "", .declareFlag "count" none .string "" "" none,
      .declarePositional "FILE" "" none, .parse ["--count", "9"]]
    ⟨["--count", "7", "--help", "x"], by simp⟩
  obtain ⟨hget, _⟩ := hreadings (.value (.scalar (.int .i32) ⟨1, .global, 1⟩))
    (.inl ⟨[], _, _, rfl, .flag (by decide +kernel)⟩)
  constructor
  · rw [show r'.get _ = r.get _ from hget]
    decide +kernel
  · rw [show r'.isHelpRequested = r.isHelpRequested from hhelp]
    decide +kernel

end CommandLine.Registry

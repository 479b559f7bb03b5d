import CommandLine.Host
import CommandLine.Manifest.Decode
import CommandLine.Proofs.Building
import CommandLine.Proofs.SlotHistory

/-!
# How a run of the host ends

The exit code of the host and what it writes, for every decoder, every manifest and every command
line.

1. A manifest that builds gives a registry that a host can reach by declarations, and that has not
   parsed (`Manifest.ready_of_build`).
2. The first parse of such a registry fails because the line is empty, before anything is read, or
   for a reason that reading gives. Its failure is then the one in the slot, whatever the slot held
   before (`parse_eq_error_cases`), so the host complains about it (`lastError_of_errors_eq`).
3. Without a registry the host reports nothing. Its code says whether it has failed or was stopped
   for lack of room (`code_of_load_eq_error`).
4. The parse shows the help text by itself exactly if the host does not show it afterwards, so it is
   shown once (`run_outcome`).
-/

namespace CommandLine

namespace Registry

/-! ## Registries of manifests -/

/-- A registry that a host has reached, and that has not parsed yet. -/
structure Ready (r : Registry) : Prop where
  reachable : r.Reachable
  parsed_eq : r.parsed = false

theorem Ready.perform {r : Registry} (h : r.Ready) (operation : Operation)
    (hedits : Edits r (r.perform operation)) : (r.perform operation).Ready :=
  ⟨h.reachable.perform operation, (parsed_eq_of_edits hedits).trans h.parsed_eq⟩

end Registry

namespace Manifest

theorem eq_of_built_eq_ok {α : Type} {wrap : Error → BuildError}
    {outcome : Registry × Except Error α} {r : Registry} (h : built wrap outcome = .ok r) :
    outcome.1 = r := by
  rcases outcome with ⟨r', e | a⟩
  · cases h
  · exact Except.ok.inj h

theorem Declaration.ready_of_make {r r' : Registry} (h : r.Ready) {d : Declaration}
    (hmake : d.make r = .ok r') : r'.Ready := by
  cases d with
  | positional scope? spec =>
    change declarePositional r scope? (some spec) = .ok r' at hmake
    unfold declarePositional at hmake
    dsimp only at hmake
    split at hmake
    · cases hmake
    · rename_i result hresult
      obtain rfl := Registry.eq_of_declarePositionalWithRoom_eq_ok hresult
      obtain rfl := eq_of_built_eq_ok hmake
      exact h.perform (.declarePositional _ _ _) (r.declarePositional_edits _ _ _)
  | flag scope? spec =>
    change declareFlag r scope? spec = .ok r' at hmake
    unfold declareFlag at hmake
    dsimp only at hmake
    split at hmake
    · obtain rfl := eq_of_built_eq_ok hmake
      exact h.perform (.declareListFlag _ _ _ _ _) (r.declareListFlag_edits _ _ _ _ _)
    · split at hmake
      · cases hmake
      · obtain rfl := eq_of_built_eq_ok hmake
        exact h.perform (.declareFlag _ _ _ _ _ _) (r.declareFlag_edits _ _ _ _ _ _)
  | subcommand spec =>
    obtain rfl := eq_of_built_eq_ok hmake
    exact h.perform (.declareSubcommand _ _) (r.declareSubcommand_edits _ _)

theorem Declaration.ready_of_foldlM {r r' : Registry} (h : r.Ready) {ds : List Declaration}
    (hfold : ds.foldlM make r = .ok r') : r'.Ready := by
  induction ds generalizing r with
  | nil =>
    obtain rfl := Except.ok.inj hfold
    exact h
  | cons d ds ih =>
    obtain ⟨q, hmake, hrest⟩ := Registry.bind_eq_ok.mp hfold
    exact ih (ready_of_make h hmake) hrest

theorem ready_of_build {m : Manifest} {id : Nat} {r : Registry} (h : m.build id = .ok r) :
    r.Ready := by
  by_cases htable : m.config.TableFits
  · rw [build_eq_foldlM htable] at h
    exact Declaration.ready_of_foldlM ⟨.start .., Registry.parsed_start ..⟩ h
  · rw [build_of_not_tableFits htable] at h
    cases h

end Manifest

namespace Registry

/-! ## A parse that fails -/

/-- The first parse that fails leaves its failure in the slot, whatever was in it. It fails because
the line is empty, and has then shown the help text, or for a reason that reading gives. -/
theorem parse_eq_error_cases {r : Registry} (hr : r.Ready) {args : List String} {e : Error}
    (h : (r.parse args).2 = .error e) :
    (r.parse args).1.errors = r.errors.record e ∧
      ((e = .noArguments ∧ r.parseOutput args = (r.parse args).1.help) ∨
        e.kind ∈ ErrorKind.unknownSubcommand :: ErrorKind.ofTokens ∧ r.parseOutput args = "") := by
  have hparsed := hr.parsed_eq
  unfold parseOutput
  unfold parse at h ⊢
  simp only [hparsed, Bool.false_eq_true, if_false, Bool.not_false, Bool.true_and] at h ⊢
  cases hargs : args.isEmpty && !r.config.allowEmptyArguments with
  | true =>
    simp only [hargs, if_true] at h ⊢
    cases h
    exact ⟨rfl, .inl ⟨rfl, rfl⟩⟩
  | false =>
    have hnames : NamesAgree { r with parsed := true } := hr.reachable.names_agree
    have htexts : HoldsTexts { r with parsed := true } := hr.reachable.holdsTexts
    have hkind := @kind_mem_of_run_eq_error _ hnames htexts args e
    simp only [hargs, Bool.false_eq_true, if_false] at h ⊢
    rcases hrun : ({ r with parsed := true } : Registry).run args with ⟨r', e' | _⟩
    · rw [hrun] at h hkind
      cases h
      exact ⟨rfl, .inr ⟨hkind rfl, trivial⟩⟩
    · rw [hrun] at h
      cases h

theorem parseOutput_of_parse_eq_ok {r : Registry} (hr : r.Ready) {args : List String}
    (h : (r.parse args).2 = .ok ()) : r.parseOutput args = "" := by
  have hparsed := hr.parsed_eq
  unfold parseOutput
  unfold parse at h
  simp only [hparsed, Bool.false_eq_true, if_false, Bool.not_false, Bool.true_and] at h ⊢
  cases hargs : args.isEmpty && !r.config.allowEmptyArguments with
  | true =>
    simp only [hargs, if_true] at h
    cases h
  | false => rfl

end Registry

namespace Host

/-- The line with which a host complains about a failure of some kind. -/
def complaint (kind : ErrorKind) : String := "error: " ++ kind.summary ++ "\n"

section Load

variable {decode : String → Option Manifest} {path : String} {source : Except String String}

/-- A manifest can be read from a source, and builds a registry. -/
def Builds (decode : String → Option Manifest) (source : Except String String) (r : Registry) :
    Prop :=
  ∃ text m, source = .ok text ∧ Manifest.accept (decode text) = .ok m ∧ m.build 1 = .ok r

/-- A manifest can be read from a source, and there cannot be room for what it asks for. -/
def Overflows (decode : String → Option Manifest) (source : Except String String) : Prop :=
  ∃ text m, source = .ok text ∧ Manifest.accept (decode text) = .ok m ∧ m.Overflows

theorem load_eq_ok_iff {r : Registry} :
    load decode path source = .ok r ↔ Builds decode source r := by
  unfold load Builds
  constructor
  · intro h
    split at h
    · cases h
    · rename_i text
      split at h
      · cases h
      · rename_i m hm
        split at h
        · cases h
        · cases h
        · rename_i r' hbuild
          obtain rfl := Except.ok.inj h
          exact ⟨text, m, rfl, hm, hbuild⟩
  · rintro ⟨text, m, rfl, hm, hbuild⟩
    simp only [hm, hbuild]

theorem overflows_iff {text : String} {m : Manifest} (hm : Manifest.accept (decode text) = .ok m) :
    Overflows decode (.ok text) ↔ m.Overflows := by
  constructor
  · rintro ⟨_, m', ⟨⟩, hm', hroom⟩
    obtain rfl := Except.ok.inj (hm'.symm.trans hm)
    exact hroom
  · exact fun hroom => ⟨text, m, rfl, hm, hroom⟩

/-- Without a registry nothing is reported, and the code says whether the host was stopped. -/
theorem code_of_load_eq_error {outcome : Outcome} (h : load decode path source = .error outcome) :
    outcome.stdout = "" ∧ (Overflows decode source → outcome.code = 101) ∧
      (¬ Overflows decode source → outcome.code = 1) := by
  have hfailed : ∀ message cause : String, outcome = failed message cause →
      ¬ Overflows decode source → outcome.stdout = "" ∧
        (Overflows decode source → outcome.code = 101) ∧
        (¬ Overflows decode source → outcome.code = 1) := by
    rintro message cause rfl hroom
    exact ⟨rfl, fun h => absurd h hroom, fun _ => rfl⟩
  unfold load at h
  split at h
  · refine hfailed _ _ (Except.error.inj h).symm ?_
    rintro ⟨_, _, ⟨⟩, _⟩
  · rename_i text
    split at h
    · rename_i reason hreason
      refine hfailed _ _ (Except.error.inj h).symm ?_
      rintro ⟨_, _, ⟨⟩, hm, _⟩
      cases hreason.symm.trans hm
    · rename_i m hm
      have hstopped := (m.build_eq_stopped_iff 1).trans (overflows_iff hm).symm
      split at h
      · rename_i e hbuild
        refine hfailed _ _ (Except.error.inj h).symm fun hroom => ?_
        cases hbuild.symm.trans (hstopped.mpr hroom)
      · rename_i reason hbuild
        cases reason
        obtain rfl := Except.error.inj h
        exact ⟨rfl, fun _ => rfl, fun hroom => absurd (hstopped.mp hbuild) hroom⟩
      · cases h

end Load

/-- What a host reads from the slot after a failure that is not internal. -/
theorem lastError_of_errors_eq {r : Registry} {slot : ErrorSlot} {e : Error}
    (h : r.errors = slot.record e) (hkind : e.kind ≠ .internal) :
    r.lastError.1 = some e.kind.summary ∧ r.lastError.2.lastErrorKind = some e.kind ∧
      r.lastError.2.help = r.help := by
  have hholds := slot.holds_record e
  have hread : ((slot.record e).perform .message).Holds (some e) := hholds.perform rfl rfl
  have hshown : e.shown = e.kind.summary := by
    cases e with
    | internal detail => exact absurd rfl hkind
    | _ => rfl
  refine ⟨?_, ?_, rfl⟩
  · show r.errors.text? = _
    rw [h, hholds.text?_eq, Option.map_some, hshown]
  · show r.errors.message.2.kind = _
    rw [h]
    exact hread.kind_eq

theorem respond_of_parse_eq_error {r : Registry} (hr : r.Ready) {args : List String} (raw : Bool)
    {e : Error} (h : (r.parse args).2 = .error e) :
    respond r args raw = {
      code := 2
      stderr :=
        if e.kind = .noArguments then (r.parse args).1.help ++ complaint e.kind
        else complaint e.kind ++ (r.parse args).1.help } := by
  obtain ⟨herrors, hcases⟩ := r.parse_eq_error_cases hr h
  have hkind : e.kind ≠ .internal := by
    rcases hcases with ⟨rfl, _⟩ | ⟨hmem, _⟩
    · decide
    · rintro hinternal
      rw [hinternal] at hmem
      exact absurd hmem (by decide)
  obtain ⟨htext, hlast, hhelp⟩ := lastError_of_errors_eq herrors hkind
  have hrespond : respond r args raw = {
      code := 2
      stderr := r.parseOutput args ++
        ("error: " ++ (r.parse args).1.lastError.1.getD "" ++ "\n") ++
          if (r.parse args).1.lastError.2.lastErrorKind = some .noArguments then ""
          else (r.parse args).1.lastError.2.help } := by
    unfold respond
    rcases hparse : r.parse args with ⟨r', _ | _⟩
    · rfl
    · rw [hparse] at h
      cases h
  rw [hrespond, htext, hlast, hhelp, Option.getD_some]
  rcases hcases with ⟨rfl, hwritten⟩ | ⟨hmem, hwritten⟩
  · -- the parse has shown the help text before the host complains
    have hempty : Error.noArguments.kind = .noArguments := rfl
    rw [hwritten, hempty, if_pos rfl, if_pos rfl, String.append_empty]
    rfl
  · have hne : e.kind ≠ .noArguments := by
      intro heq
      rw [heq] at hmem
      exact absurd hmem (by decide)
    rw [hwritten, if_neg (fun heq => hne (Option.some.inj heq)), if_neg hne, String.empty_append]
    rfl

theorem respond_of_parse_eq_ok {r : Registry} (hr : r.Ready) {args : List String} (raw : Bool)
    (h : (r.parse args).2 = .ok ()) :
    respond r args raw =
      if (r.parse args).1.isHelpRequested then { code := 0, stderr := (r.parse args).1.help }
      else { code := 0, stdout := (r.parse args).1.report raw ++ "\n" } := by
  have hwritten := r.parseOutput_of_parse_eq_ok hr h
  unfold respond
  rcases hparse : r.parse args with ⟨r', _ | _⟩
  · rw [hparse] at h
    cases h
  · simp only [hwritten, String.empty_append]

/-- **Outcome of the host.** For a manifest that can be read and builds: if the command line is
refused, the host writes the complaint about its failure and the help text, each once, and the help
text comes first if the line is empty where that is refused; if help is requested, it writes the
help text; otherwise it writes the report. Without such a manifest it reports nothing and ends with
code 1, unless it is stopped because there cannot be room for what the manifest asks for; then it
ends with code 101. -/
theorem run_outcome (decode : String → Option Manifest) (path : String)
    (source : Except String String) (args : List String) (raw : Bool) :
    (∀ r, Builds decode source r →
      let after := (r.parse args).1
      (∀ e, (r.parse args).2 = .error e →
        run decode path source args raw = {
          code := 2
          stdout := ""
          stderr :=
            if e.kind = .noArguments then after.help ++ complaint e.kind
            else complaint e.kind ++ after.help }) ∧
      ((r.parse args).2 = .ok () → after.isHelpRequested = true →
        run decode path source args raw = { code := 0, stdout := "", stderr := after.help }) ∧
      ((r.parse args).2 = .ok () → after.isHelpRequested = false →
        run decode path source args raw =
          { code := 0, stdout := after.report raw ++ "\n", stderr := "" })) ∧
      ((∀ r, ¬ Builds decode source r) →
        (run decode path source args raw).stdout = "" ∧
          (Overflows decode source → (run decode path source args raw).code = 101) ∧
          (¬ Overflows decode source → (run decode path source args raw).code = 1)) := by
  unfold run
  constructor
  · intro r hbuilds after
    have hr : r.Ready := by
      obtain ⟨_, m, _, _, hbuild⟩ := hbuilds
      exact Manifest.ready_of_build hbuild
    simp only [load_eq_ok_iff.mpr hbuilds]
    refine ⟨fun e h => respond_of_parse_eq_error hr raw h, fun h hhelp => ?_, fun h hhelp => ?_⟩
    · rw [respond_of_parse_eq_ok hr raw h, if_pos hhelp]
    · rw [respond_of_parse_eq_ok hr raw h, if_neg (by rw [hhelp]; decide)]
  · intro hnone
    cases hload : load decode path source with
    | error outcome => exact code_of_load_eq_error hload
    | ok r => exact absurd (load_eq_ok_iff.mp hload) (hnone r)

theorem run_outcome_sample :
    let text := "[config]\nmax_flags = 0\nallow_empty_arguments = false\n"
    let large : Manifest := {
      name := "", description := "", config := { maxPositionals := 384307168202282326 }
      positional := some ⟨"file", ""⟩, flags := [], subcommands := [] }
    (∃ r, Builds Manifest.decode? (.ok text) r ∧ r.lastErrorKind = some .full ∧
        run Manifest.decode? "press.toml" (.ok text) [] true =
          { code := 2, stderr := (r.parse []).1.help ++ complaint .noArguments } ∧
        run Manifest.decode? "press.toml" (.ok text) ["x", "-"] true =
          { code := 2, stderr := complaint .unknownFlag ++ (r.parse ["x", "-"]).1.help } ∧
        run Manifest.decode? "press.toml" (.ok text) ["x"] true =
          { code := 0, stdout := (r.parse ["x"]).1.report true ++ "\n" }) ∧
      (run Manifest.decode? "press.toml" (.error "no such file") ["x"] true).code = 1 ∧
      (run (fun _ => some large) "press.toml" (.ok text) ["x"] true).code = 101 := by
  intro text large
  have hparses : ((Manifest.accept (Manifest.decode? text)).toOption.bind fun m =>
      (m.build 1).toOption.bind fun r =>
      if r.lastErrorKind = some .full ∧ (r.parse []).2 = .error .noArguments ∧
        (r.parse ["x", "-"]).2 = .error (.unknownFlag "-") ∧ (r.parse ["x"]).2 = .ok () ∧
        (r.parse ["x"]).1.isHelpRequested = false then some () else none) = some () := by
    decide +kernel
  obtain ⟨m, hm, hparses⟩ := Option.bind_eq_some_iff.mp hparses
  obtain ⟨r, hbuild, hparses⟩ := Option.bind_eq_some_iff.mp hparses
  obtain ⟨⟨hfull, hempty, hdash, hok, hhelp⟩, _⟩ := Option.ite_none_right_eq_some.mp hparses
  rw [Registry.toOption_eq_some_iff] at hm hbuild
  have hbuilds : Builds Manifest.decode? (.ok text) r := ⟨text, m, rfl, hm, hbuild⟩
  have houtcome := fun args => (run_outcome Manifest.decode? "press.toml" (.ok text) args true).1
  refine ⟨⟨r, hbuilds, hfull, ?_, ?_, ?_⟩, ?_, ?_⟩
  · exact (houtcome [] r hbuilds).1 _ hempty
  · exact (houtcome ["x", "-"] r hbuilds).1 _ hdash
  · exact (houtcome ["x"] r hbuilds).2.2 hok hhelp
  · have hnone := (run_outcome Manifest.decode? "press.toml" (.error "no such file") ["x"] true).2
    refine (hnone ?_).2.2 ?_
    · rintro r' ⟨_, _, h, _⟩
      cases h
    · rintro ⟨_, _, h, _⟩
      cases h
  · have hnone := (run_outcome (fun _ => some large) "press.toml" (.ok text) ["x"] true).2
    have hlarge : large.Overflows := Manifest.overflows_of_positional rfl fun h =>
      absurd (Config.positionalsFit_iff.mp h) (by decide)
    refine (hnone ?_).2.1 ⟨text, large, rfl, rfl, hlarge⟩
    rintro r' ⟨_, _, _, ⟨⟩, h⟩
    cases h.symm.trans ((large.build_eq_stopped_iff 1).mpr hlarge)

/-- The largest limit of positional values stops the host before it looks at the command line. -/
theorem run_of_largest_limit :
    let text := "[config]\nmax_main_args = 9223372036854775807\n[main_arg]\nname = \"F\"\n"
    run Manifest.decode? "press.toml" (.ok text) ["a"] true = { code := 101 } := by
  decide +kernel

end Host

end CommandLine

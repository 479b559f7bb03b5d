import CommandLine.Proofs.Selection

/-!
# What a parse leaves alone

A parse selects a scope and reads items into it; apart from that it records its failure and that it
took place.

1. `parse_of_parsed` and `parse_fst_spec` say once what a parse leaves, whether it succeeds or not.
2. `Scopewise` lifts a relation of scopes to registries.
3. `SameDeclared`: two registries that were declared alike. A parse leaves a registry declared as it
   was, and every scope but the selected one as it is. In the selected scope a flag keeps its value
   unless one of the items that were read names it (`parse_frame`).
-/

namespace CommandLine

/-! ## Scopes -/

/-- Two scopes differ at most in what was read into them. -/
structure Scope.SameDeclared (s s' : Scope) : Prop where
  declarations_eq : s'.declarations = s.declarations
  name_eq : s'.positional.name = s.positional.name
  description_eq : s'.positional.description = s.positional.description

theorem Scope.SameDeclared.refl (s : Scope) : s.SameDeclared s := ⟨rfl, rfl, rfl⟩

theorem Scope.SameDeclared.trans {s t u : Scope} (h : s.SameDeclared t) (h' : t.SameDeclared u) :
    s.SameDeclared u where
  declarations_eq := h'.declarations_eq.trans h.declarations_eq
  name_eq := h'.name_eq.trans h.name_eq
  description_eq := h'.description_eq.trans h.description_eq

theorem Scope.sameDeclared_afterAll (s : Scope) (items : List Item) :
    s.SameDeclared (s.afterAll items) where
  declarations_eq := s.declarations_afterAll items
  name_eq := by
    rw [positional_afterAll]
    exact (Positional.heading_foldl_given _ _).1
  description_eq := by
    rw [positional_afterAll]
    exact (Positional.heading_foldl_given _ _).2

/-- A flag whose value is another after a cut is named by one of its items. -/
theorem Scope.Cut.exists_resolves_of_value_ne {s : Scope} {items : List Item} {rest : List String}
    (hcut : s.Cut items rest) {index : Nat} {f f' : Flag} (hf : s.flags[index]? = some f)
    (hf' : (s.afterAll items).flags[index]? = some f') (hne : f'.value ≠ f.value) :
    ∃ token values, .flag index token values ∈ items ∧ s.Resolves token index := by
  rw [getElem?_flags_afterAll, hf] at hf'
  obtain rfl := Option.some.inj hf'
  have hgiven : Item.occurrences index items ≠ [] := by
    intro hnone
    rw [hnone] at hne
    exact hne rfl
  obtain ⟨values, hvalues⟩ := List.exists_mem_of_ne_nil _ hgiven
  obtain ⟨token, hitem⟩ := Item.mem_occurrences.mp hvalues
  obtain ⟨_, hfits⟩ := hcut.fits_of_mem hitem
  cases hfits with
  | flag hname _ _ => exact ⟨token, values, hitem, hname⟩

namespace Registry

/-! ## One parse -/

theorem parse_of_parsed {r : Registry} (hparsed : r.parsed = true) (args : List String) :
    r.parse args = r.fail (.internal "registry already parsed") := by
  unfold parse
  rw [if_pos hparsed]

/-- The first parse leaves what a run leaves, up to the failure. -/
theorem parse_fst_eq_run {r : Registry} (hparsed : r.parsed = false) {args : List String}
    (hargs : (args.isEmpty && !r.config.allowEmptyArguments) = false) :
    ∃ errors, (r.parse args).1 =
      { (({ r with parsed := true } : Registry).run args).1 with errors := errors } := by
  unfold parse
  simp only [hparsed, Bool.false_eq_true, if_false, hargs]
  split
  · rename_i r' heq
    rw [heq]
    exact ⟨r'.errors, rfl⟩
  · rename_i r' e heq
    rw [heq]
    exact ⟨r'.errors.record e, rfl⟩

/-- The first parse selects nothing, at an undeclared name, or selects a scope and leaves in it what
a cut of the first tokens leaves. An empty line that is refused counts as a cut without items. -/
theorem parse_fst_spec {r : Registry} (hnames : NamesAgree r) (hparsed : r.parsed = false)
    (args : List String) :
    ∃ errors : ErrorSlot,
      ((∀ id tokens, ¬ r.Selects args id tokens) ∧
          (r.parse args).1 = { r with parsed := true, errors := errors }) ∨
        ∃ id s items rest, r.Selects args id (Item.line items ++ rest) ∧ r.scope id = .ok s ∧
          s.Cut items rest ∧ (r.parse args).1 =
            { (r.selected id).setScope (s.afterAll items) id with
              parsed := true, errors := errors } := by
  cases hargs : args.isEmpty && !r.config.allowEmptyArguments with
  | true =>
    have hnil : args = [] := by
      rw [Bool.and_eq_true, List.isEmpty_iff] at hargs
      exact hargs.1
    subst hnil
    refine ⟨r.errors.record .noArguments, .inr ⟨.global, r.global, [], [], ?_, rfl, trivial, ?_⟩⟩
    · exact .inl ⟨rfl, rfl, .inl rfl⟩
    · unfold parse
      simp only [hparsed, Bool.false_eq_true, if_false, hargs, if_true]
      rfl
  | false =>
    obtain ⟨errors, hparse⟩ := parse_fst_eq_run hparsed hargs
    refine ⟨errors, ?_⟩
    rw [hparse]
    have hnames' : NamesAgree { r with parsed := true } := hnames
    have hmarked : ∀ id (t : Scope), (({ r with parsed := true } : Registry).selected id).setScope t
        id = { (r.selected id).setScope t id with parsed := true } := by
      intro id t
      cases id <;> rfl
    rcases run_spec hnames' args with ⟨first, rest, rfl, hsubs, hdash, hnone, hrun⟩ |
      ⟨id, s, items, rest, hselects, hscope, hcut, _, ⟨_, hrun⟩ | ⟨token, more, e, _, _, hrun⟩⟩
    · refine .inl ⟨?_, by rw [hrun]⟩
      rintro id tokens (⟨_, _, h | h | ⟨first', hfirst, h⟩⟩ | ⟨first', slot, sub, h, _, hsub, hname, _⟩)
      · cases h
      · exact hsubs h
      · obtain rfl := Option.some.inj hfirst
        exact absurd (hdash.symm.trans h) (by decide)
      · obtain ⟨rfl, _⟩ := List.cons.inj h
        exact hnone sub (List.mem_of_getElem? hsub) hname
    · exact .inr ⟨id, s, items, rest, hselects, hscope, hcut, by rw [hrun, hmarked]⟩
    · exact .inr ⟨id, s, items, rest, hselects, hscope, hcut, by rw [hrun, hmarked]⟩

/-! ## Scope by scope -/

/-- Every scope of the first registry has one in the second that is in relation to it. -/
def Scopewise (R : Scope → Scope → Prop) (r r' : Registry) : Prop :=
  ∀ id s, r.scope id = .ok s → ∃ s', r'.scope id = .ok s' ∧ R s s'

section Scopewise

variable {R : Scope → Scope → Prop} {r r' r'' : Registry}

theorem scopewise_of_scope_eq (hrefl : ∀ s, R s s) (h : ∀ id, r'.scope id = r.scope id) :
    Scopewise R r r' := by
  intro id s hs
  exact ⟨s, (h id).trans hs, hrefl s⟩

theorem scopewise_setScope (hrefl : ∀ s, R s s) {id : ScopeId} {s t : Scope}
    (hs : r.scope id = .ok s) (ht : R s t) : Scopewise R r (r.setScope t id) := by
  intro id' s' hs'
  rw [scope_setScope hs]
  by_cases hid : id' = id
  · subst hid
    obtain rfl := Except.ok.inj (hs.symm.trans hs')
    exact ⟨t, if_pos rfl, ht⟩
  · exact ⟨s', by rw [if_neg hid, hs'], hrefl s'⟩

theorem Scopewise.trans (htrans : ∀ s t u, R s t → R t u → R s u) (h : Scopewise R r r')
    (h' : Scopewise R r' r'') : Scopewise R r r'' := by
  intro id s hs
  obtain ⟨t, ht, hst⟩ := h id s hs
  obtain ⟨u, hu, htu⟩ := h' id t ht
  exact ⟨u, hu, htrans s t u hst htu⟩

theorem Scopewise.mono {R' : Scope → Scope → Prop} (hR : ∀ s t, R s t → R' s t)
    (h : Scopewise R r r') : Scopewise R' r r' := by
  intro id s hs
  obtain ⟨t, ht, hst⟩ := h id s hs
  exact ⟨t, ht, hR s t hst⟩

end Scopewise

/-! ## Declarations of a registry -/

/-- Two registries were declared alike: they differ at most in what was read into their scopes, in
the selected subcommand, in whether they have parsed and in their last failure. -/
structure SameDeclared (r r' : Registry) : Prop where
  id_eq : r'.id = r.id
  name_eq : r'.name = r.name
  description_eq : r'.description = r.description
  config_eq : r'.config = r.config
  names_eq : r'.names = r.names
  helpFlags_eq : r'.helpFlags = r.helpFlags
  subcommands_eq : r'.subcommands.map (fun sub => (sub.name, sub.description)) =
    r.subcommands.map fun sub => (sub.name, sub.description)
  scope : Scopewise Scope.SameDeclared r r'

theorem sameDeclared_selected (r : Registry) (id : ScopeId) : r.SameDeclared (r.selected id) := by
  have hscope : Scopewise Scope.SameDeclared r (r.selected id) :=
    scopewise_of_scope_eq .refl (r.scope_selected id)
  cases id with
  | global => exact ⟨rfl, rfl, rfl, rfl, rfl, rfl, rfl, hscope⟩
  | subcommand slot =>
    refine ⟨rfl, rfl, rfl, rfl, rfl, rfl, ?_, hscope⟩
    apply map_modify_of_forall
    intro sub
    rfl

theorem sameDeclared_setScope {r : Registry} {id : ScopeId} {s t : Scope}
    (hs : r.scope id = .ok s) (ht : s.SameDeclared t) : r.SameDeclared (r.setScope t id) := by
  have hscope : Scopewise Scope.SameDeclared r (r.setScope t id) :=
    scopewise_setScope .refl hs ht
  cases id with
  | global => exact ⟨rfl, rfl, rfl, rfl, rfl, rfl, rfl, hscope⟩
  | subcommand slot =>
    refine ⟨rfl, rfl, rfl, rfl, rfl, rfl, ?_, hscope⟩
    apply map_modify_of_forall
    intro sub
    rfl

theorem SameDeclared.trans {r q p : Registry} (h : r.SameDeclared q) (h' : q.SameDeclared p) :
    r.SameDeclared p where
  id_eq := h'.id_eq.trans h.id_eq
  name_eq := h'.name_eq.trans h.name_eq
  description_eq := h'.description_eq.trans h.description_eq
  config_eq := h'.config_eq.trans h.config_eq
  names_eq := h'.names_eq.trans h.names_eq
  helpFlags_eq := h'.helpFlags_eq.trans h.helpFlags_eq
  subcommands_eq := h'.subcommands_eq.trans h.subcommands_eq
  scope := h.scope.trans (fun _ _ _ h h' => h.trans h') h'.scope

/-- The mark of a parse and the last failure are no declarations. -/
theorem SameDeclared.of_marks {r q : Registry} (h : r.SameDeclared q) (parsed : Bool)
    (errors : ErrorSlot) : r.SameDeclared { q with parsed := parsed, errors := errors } :=
  ⟨h.id_eq, h.name_eq, h.description_eq, h.config_eq, h.names_eq, h.helpFlags_eq,
    h.subcommands_eq, h.scope⟩

theorem SameDeclared.refl (r : Registry) : r.SameDeclared r :=
  sameDeclared_selected r .global

theorem sameDeclared_parse {r : Registry} (hnames : NamesAgree r) (args : List String) :
    r.SameDeclared (r.parse args).1 := by
  cases hparsed : r.parsed with
  | true =>
    rw [parse_of_parsed hparsed]
    exact (SameDeclared.refl r).of_marks r.parsed _
  | false =>
    obtain ⟨errors, ⟨_, hparse⟩ | ⟨id, s, items, rest, _, hscope, _, hparse⟩⟩ :=
      parse_fst_spec hnames hparsed args
    · rw [hparse]
      exact (SameDeclared.refl r).of_marks true errors
    · rw [hparse]
      have hscope' := (r.scope_selected id id).trans hscope
      have hset := sameDeclared_setScope hscope' (s.sameDeclared_afterAll items)
      exact ((sameDeclared_selected r id).trans hset).of_marks true errors

/-! ## The frame -/

/-- What the first parse leaves in a scope: in the selected one what a cut of the first tokens
leaves, in all others what was there. -/
theorem scope_parse {r : Registry} (hnames : NamesAgree r) (hparsed : r.parsed = false)
    (args : List String) :
    (∀ id, (∀ tokens, ¬ r.Selects args id tokens) → (r.parse args).1.scope id = r.scope id) ∧
      ∀ id tokens s, r.Selects args id tokens → r.scope id = .ok s →
        ∃ items rest, tokens = Item.line items ++ rest ∧ s.Cut items rest ∧
          (r.parse args).1.scope id = .ok (s.afterAll items) := by
  obtain ⟨errors, ⟨hnone, hparse⟩ | ⟨id, s, items, rest, hselects, hscope, hcut, hparse⟩⟩ :=
    parse_fst_spec hnames hparsed args
  · rw [hparse]
    exact ⟨fun id _ => rfl, fun id tokens s h => absurd h (hnone id tokens)⟩
  · have hread : ∀ id', (r.parse args).1.scope id' =
        ((r.selected id).setScope (s.afterAll items) id).scope id' := by
      intro id'
      rw [hparse]
      rfl
    constructor
    · intro id' hother
      have hne : id' ≠ id := by
        rintro rfl
        exact hother _ hselects
      rw [hread, scope_setScope ((r.scope_selected id id).trans hscope), if_neg hne,
        scope_selected]
    · intro id' tokens s' hselects' hscope'
      obtain ⟨rfl, rfl⟩ := hselects'.unique hnames hselects
      obtain rfl := Except.ok.inj (hscope'.symm.trans hscope)
      exact ⟨items, rest, rfl, hcut, (hread id').trans (scope_setScope_selected hscope _)⟩

/-- **Frame of a parse.** A parse, whether it succeeds or fails, leaves a registry declared as it
was, and every scope that the line does not select as it is; a second parse leaves every scope as it
is. In the selected scope it appends positional values, and it changes the value of a flag only if
an item of the line, cut from the front, names the flag. -/
theorem parse_frame {r : Registry} (hr : r.Reachable) (args : List String) :
    r.SameDeclared (r.parse args).1 ∧
      (∀ id, (∀ tokens, ¬ r.Selects args id tokens) ∨ r.parsed = true →
        (r.parse args).1.scope id = r.scope id) ∧
      ∀ id tokens s, r.Selects args id tokens → r.scope id = .ok s →
        ∃ s' items rest, (r.parse args).1.scope id = .ok s' ∧
          tokens = Item.line items ++ rest ∧ s.Cut items rest ∧
          s'.positional.values = s.positional.values ++ Item.positionals items ∧
          ∀ index f f', s.flags[index]? = some f → s'.flags[index]? = some f' →
            f'.value ≠ f.value →
              ∃ token values, .flag index token values ∈ items ∧ s.Resolves token index := by
  have hnames := hr.names_agree
  refine ⟨sameDeclared_parse hnames args, ?_⟩
  cases hparsed : r.parsed with
  | true =>
    -- the second parse is refused before it reads anything
    rw [parse_of_parsed hparsed]
    refine ⟨fun id _ => rfl, fun id tokens s _ hscope => ?_⟩
    refine ⟨s, [], tokens, hscope, rfl, trivial, (List.append_nil _).symm, ?_⟩
    intro index f f' hf hf' hne
    obtain rfl := Option.some.inj (hf.symm.trans hf')
    exact absurd rfl hne
  | false =>
    obtain ⟨hothers, hselected⟩ := scope_parse hnames hparsed args
    refine ⟨fun id h => hothers id (h.resolve_right (by decide)), ?_⟩
    intro id tokens s hselects hscope
    obtain ⟨items, rest, htokens, hcut, hread⟩ := hselected id tokens s hselects hscope
    exact ⟨s.afterAll items, items, rest, hread, htokens, hcut, s.values_afterAll items,
      fun index f f' hf hf' hne => hcut.exists_resolves_of_value_ne hf hf' hne⟩

theorem parse_frame_sample :
    (sample.parse ["build", "x", "-n", "a", "--ids", "300"]).2 = .error (.invalidNumber "300") ∧
      (sample.parse ["build", "x", "-n", "a", "--ids", "300"]).1.scope .global =
        sample.scope .global ∧
      sample.SameDeclared (sample.parse ["build", "x", "-n", "a", "--ids", "300"]).1 := by
  obtain ⟨hdeclared, hothers, _⟩ :=
    parse_frame reachable_sample ["build", "x", "-n", "a", "--ids", "300"]
  refine ⟨by decide +kernel, hothers .global (.inl ?_), hdeclared⟩
  rintro tokens (⟨_, _, h | h | ⟨first, hfirst, h⟩⟩ | ⟨_, _, _, _, _, _, _, h⟩)
  · cases h
  · have hne : sample.subcommands ≠ [] := by decide +kernel
    exact hne h
  · obtain rfl := Option.some.inj hfirst
    exact absurd h (by decide +kernel)
  · cases h

end Registry

end CommandLine

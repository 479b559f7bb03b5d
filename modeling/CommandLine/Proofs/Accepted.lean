import CommandLine.Proofs.Invariant

/-!
# Accepted command lines

A registry accepts exactly the command lines of its grammar: the first token selects a scope by the
rule of `Registry.Selects`, and the tokens that remain can be cut into items of that scope with no
more positional values than the limit (`parse_eq_ok_iff_exists_cut`).

What such a line leaves in the scope has a closed form over the cut (`parse_values_eq`). A flag that
no item names keeps its default. A switch that some item names is set. Another single value is that
of the last item that names its flag. A list is what all its items give, in order.
-/

namespace CommandLine

/-! ## Acceptance -/

theorem Scope.room_iff_of_values_eq_nil {s : Scope} {limit : Nat} {items : List Item}
    (htexts : s.positional.list.kind = .string) (hvalues : s.positional.values = []) :
    s.Room limit items ↔ (Item.positionals items).length ≤ limit := by
  unfold Room
  rw [hvalues, List.length_nil, Nat.zero_add]
  constructor
  · rintro (h | ⟨_, h⟩)
    · rw [h]
      exact Nat.zero_le limit
    · exact h
  · exact fun h => .inr ⟨htexts, h⟩

namespace Registry

/-- **Acceptance.** Before it parses, a registry accepts a command line exactly if the tokens that
remain for the selected scope have a cut with room for the positional values. -/
theorem parse_eq_ok_iff_exists_cut {r : Registry} (hr : r.Reachable) (hparsed : r.parsed = false)
    {args : List String} (hargs : args ≠ [] ∨ r.config.allowEmptyArguments = true) :
    (r.parse args).2 = .ok () ↔
      ∃ id tokens s items, r.Selects args id tokens ∧ r.scope id = .ok s ∧ s.Cut items [] ∧
        Item.line items = tokens ∧ (Item.positionals items).length ≤ r.config.maxPositionals := by
  have hnames : NamesAgree { r with parsed := true } := hr.names_agree
  constructor
  · intro hok
    have hparse : r.parse args = ((r.parse args).1, .ok ()) := Prod.ext rfl hok
    obtain ⟨id, s, items, hselects, hscope, hcut, hroom, _⟩ :=
      exists_cut_of_run_eq_ok hnames (run_of_parse_eq_ok hparse)
    have htexts := hr.holdsTexts id s hscope
    have hvalues := (hr.isFresh hparsed id s hscope).values_eq
    exact ⟨id, _, s, items, hselects, hscope, hcut, rfl,
      (Scope.room_iff_of_values_eq_nil htexts hvalues).mp hroom⟩
  · rintro ⟨id, tokens, s, items, hselects, hscope, hcut, rfl, hlimit⟩
    have htexts := hr.holdsTexts id s hscope
    have hvalues := (hr.isFresh hparsed id s hscope).values_eq
    have hrun := run_of_cut hnames hselects hscope hcut
      ((Scope.room_iff_of_values_eq_nil htexts hvalues).mpr hlimit)
    rw [parse_eq_ok_of_run hparsed hargs hrun]

theorem parse_eq_ok_iff_exists_cut_sample :
    ∃ id tokens s items,
      sample.Selects ["build", "-i", "1", "-2", "--", "x", "--name", "--help"] id tokens ∧
        sample.scope id = .ok s ∧ s.Cut items [] ∧ Item.line items = tokens ∧
        (Item.positionals items).length ≤ sample.config.maxPositionals :=
  (parse_eq_ok_iff_exists_cut reachable_sample (by decide +kernel) (.inl (by simp))).mp
    (by decide +kernel)

end Registry

/-! ## Final values -/

/-- The value of a flag after a line, from the tokens the flag takes each time the line names it. -/
structure Flag.Ends (f : Flag) (given : List (List String)) (v : Value) : Prop where
  absent : given = [] → v = f.default
  switch : f.isList = false → f.kind = .bool → given ≠ [] → v = .scalar .bool true
  single : f.isList = false → f.kind ≠ .bool → given ≠ [] → ∃ token x,
    given.getLast? = some [token] ∧ f.kind.read? token = some x ∧ v = .scalar f.kind x
  list : f.isList = true → (∀ token ∈ given.flatten, (f.kind.read? token).isSome = true) ∧
    v = .list ⟨f.kind, given.flatten.filterMap f.kind.read?⟩

/-- Each name of the flag at an index is one that an earlier flag has too. -/
structure Scope.IsShadowed (s : Scope) (index : Nat) (f : Flag) : Prop where
  long : ∀ name, f.long = some name → ∃ j < index, ∃ g, s.flags[j]? = some g ∧ g.long = some name
  short : ∀ c, f.short = some c → ∃ j < index, ∃ g, s.flags[j]? = some g ∧ g.short = some c

/-! ## One occurrence after another -/

theorem Value.given_single {k : Kind} (hk : k ≠ .bool) {token : String} {x : k.Carrier}
    (hread : k.read? token = some x) (y : k.Carrier) :
    (Value.scalar k y).given [token] = .scalar k x := by
  cases k with
  | bool => exact absurd rfl hk
  | string => simp [given, hread]
  | int t => simp [given, hread]

theorem Value.exists_foldl_given_scalar (k : Kind) (x : k.Carrier) (given : List (List String)) :
    ∃ y : k.Carrier, given.foldl Value.given (.scalar k x) = .scalar k y := by
  induction given generalizing x with
  | nil => exact ⟨x, rfl⟩
  | cons values given ih =>
    cases k with
    | bool => exact ih true
    | string => exact ih _
    | int t => exact ih _

theorem Value.foldl_given_list (k : Kind) (items : List k.Carrier) (given : List (List String)) :
    given.foldl Value.given (.list ⟨k, items⟩) =
      .list ⟨k, items ++ given.flatten.filterMap k.read?⟩ := by
  induction given generalizing items with
  | nil => simp
  | cons values given ih =>
    show given.foldl Value.given (.list ⟨k, items ++ values.filterMap k.read?⟩) = _
    rw [ih, List.flatten_cons, List.filterMap_append, List.append_assoc]

namespace Flag

theorem Takes.exists_read {f : Flag} {values rest : List String} (h : f.Takes values rest)
    (hlist : f.isList = false) (hkind : f.kind ≠ .bool) :
    ∃ token x, values = [token] ∧ f.kind.read? token = some x := by
  cases h with
  | switch _ hbool => exact absurd hbool hkind
  | @text token _ _ htext =>
    rw [htext]
    exact ⟨token, token, rfl, rfl⟩
  | @number t token _ _ hint hread =>
    obtain ⟨n, hn⟩ := Option.isSome_iff_exists.mp hread
    rw [hint]
    exact ⟨token, n, rfl, hn⟩
  | list hlist' => exact absurd (hlist.symm.trans hlist') (by decide)

theorem Takes.isSome_read {f : Flag} {values rest : List String} (h : f.Takes values rest)
    (hlist : f.isList = true) : ∀ token ∈ values, (f.kind.read? token).isSome = true := by
  cases h with
  | switch hlist' => exact absurd (hlist.symm.trans hlist') (by decide)
  | text hlist' => exact absurd (hlist.symm.trans hlist') (by decide)
  | number hlist' => exact absurd (hlist.symm.trans hlist') (by decide)
  | list _ hread => exact hread

/-- The value of a new flag that takes tokens some times. -/
theorem IsNew.ends_foldl_given {f : Flag} (hnew : f.IsNew) {given : List (List String)}
    (htakes : ∀ values ∈ given, ∃ rest, f.Takes values rest) :
    f.Ends given (given.foldl Value.given f.value) where
  absent := by
    rintro rfl
    exact hnew.value_eq
  switch := by
    intro hlist hkind hne
    obtain ⟨before, last, rfl⟩ := List.eq_nil_or_concat' given |>.resolve_left hne
    obtain ⟨b, hb⟩ := Value.exists_eq_scalar hlist hkind
    obtain ⟨b', hb'⟩ := Value.exists_foldl_given_scalar .bool b before
    rw [hb, List.foldl_append, hb']
    rfl
  single := by
    intro hlist hkind hne
    obtain ⟨before, last, rfl⟩ := List.eq_nil_or_concat' given |>.resolve_left hne
    obtain ⟨rest, hlast⟩ := htakes last (by simp)
    obtain ⟨token, x, rfl, hread⟩ := hlast.exists_read hlist hkind
    obtain ⟨y, hy⟩ := Value.exists_eq_scalar (k := f.kind) hlist rfl
    obtain ⟨y', hy'⟩ := Value.exists_foldl_given_scalar f.kind y before
    refine ⟨token, x, List.getLast?_concat, hread, ?_⟩
    rw [hy, List.foldl_append, hy']
    exact Value.given_single hkind hread y'
  list := by
    intro hlist
    obtain ⟨items, hitems⟩ := Value.exists_eq_list (k := f.kind) hlist rfl
    have hempty : items = [] := hnew.items_eq _ (hnew.value_eq.symm.trans hitems)
    constructor
    · intro token htoken
      obtain ⟨values, hvalues, hmem⟩ := List.mem_flatten.mp htoken
      obtain ⟨rest, hvalues⟩ := htakes values hvalues
      exact hvalues.isSome_read hlist token hmem
    · rw [hitems, Value.foldl_given_list, hempty, List.nil_append]

end Flag

/-! ## Shadowed flags -/

/-- No token names a shadowed flag. -/
theorem Scope.IsShadowed.not_resolves {s : Scope} {index : Nat} {f : Flag}
    (h : s.IsShadowed index f) (hflag : s.flags[index]? = some f) (token : String) :
    ¬ s.Resolves token index := by
  rintro (⟨_, ⟨f', hf', hname⟩, hbefore⟩ | ⟨_, ⟨f', hf', hname⟩, hbefore⟩)
  · obtain rfl := Option.some.inj (hflag.symm.trans hf')
    obtain ⟨j, hj, g, hg, hlong⟩ := h.long _ hname
    exact hbefore j hj g hg hlong
  · obtain rfl := Option.some.inj (hflag.symm.trans hf')
    obtain ⟨j, hj, g, hg, hshort⟩ := h.short _ hname
    exact hbefore j hj g hg hshort

theorem Scope.IsShadowed.occurrences_eq_nil {s : Scope} {index : Nat} {f : Flag}
    (h : s.IsShadowed index f) (hflag : s.flags[index]? = some f) {items : List Item}
    {rest : List String} (hcut : s.Cut items rest) : Item.occurrences index items = [] := by
  apply List.eq_nil_iff_forall_not_mem.mpr
  intro values hvalues
  obtain ⟨token, hitem⟩ := Item.mem_occurrences.mp hvalues
  obtain ⟨rest', hfits⟩ := hcut.fits_of_mem hitem
  cases hfits with
  | flag hname _ _ => exact h.not_resolves hflag token hname

/-! ## The scope that a line selects -/

/-- A cut gives each flag of a fresh scope its value. -/
theorem Scope.IsFresh.exists_ends_afterAll {s : Scope} (hfresh : s.IsFresh) {items : List Item}
    {rest : List String} (hcut : s.Cut items rest) {index : Nat} {f : Flag}
    (hf : s.flags[index]? = some f) :
    ∃ v, (s.afterAll items).flags[index]? = some { f with value := v } ∧
      f.Ends (Item.occurrences index items) v := by
  have hnew : f.IsNew := hfresh.isNew f (List.mem_of_getElem? hf)
  refine ⟨_, ?_, hnew.ends_foldl_given fun values hvalues => ?_⟩
  · rw [getElem?_flags_afterAll, hf]
    rfl
  · exact hcut.takes_of_mem_occurrences hf hvalues

namespace Registry

/-- **Final values.** A registry that accepts its first command line has one cut of it. The selected
scope then holds, for each flag, the value that the occurrences of the flag in the cut give to it,
and the positional values of the cut. -/
theorem parse_values_eq {r r' : Registry} (hr : r.Reachable) (hparsed : r.parsed = false)
    {args : List String} (h : r.parse args = (r', .ok ())) :
    ∃ id s s' items, r.Selects args id (Item.line items) ∧ r.scope id = .ok s ∧ s.Cut items [] ∧
      (∀ id₁ s₁ items₁, r.Selects args id₁ (Item.line items₁) → r.scope id₁ = .ok s₁ →
        s₁.Cut items₁ [] → id₁ = id ∧ items₁ = items) ∧
      r'.scope id = .ok s' ∧ s'.positional.values = Item.positionals items ∧
      s'.flags.length = s.flags.length ∧
      ∀ index f, s.flags[index]? = some f → ∃ v, s'.flags[index]? = some { f with value := v } ∧
        f.Ends (Item.occurrences index items) v ∧ (s.IsShadowed index f → v = f.default) := by
  have hnames : NamesAgree { r with parsed := true } := hr.names_agree
  obtain ⟨id, s, items, hselects, hscope, hcut, _, rfl⟩ :=
    exists_cut_of_run_eq_ok hnames (run_of_parse_eq_ok h)
  have hfresh := hr.isFresh hparsed id s hscope
  refine ⟨id, s, s.afterAll items, items, hselects, hscope, hcut, ?_, ?_, ?_, ?_, ?_⟩
  · intro id₁ s₁ items₁ hselects₁ hscope₁ hcut₁
    obtain ⟨rfl, hline⟩ := hselects₁.unique hnames hselects
    obtain rfl := Except.ok.inj (hscope₁.symm.trans hscope)
    exact ⟨rfl, hcut₁.unique hcut hline⟩
  · exact scope_setScope_selected hscope _
  · rw [Scope.values_afterAll, hfresh.values_eq, List.nil_append]
  · exact s.length_flags_afterAll items
  · intro index f hf
    obtain ⟨v, hv, hends⟩ := hfresh.exists_ends_afterAll hcut hf
    refine ⟨v, hv, hends, fun hshadowed => ?_⟩
    exact hends.absent (hshadowed.occurrences_eq_nil hf hcut)

theorem parse_values_eq_sample :
    ∃ id s s' items,
      sample.Selects ["build", "-i", "1", "-2", "--", "x", "--ids", "3", "-n", "a", "--name", "-n"]
        id (Item.line items) ∧ sample.scope id = .ok s ∧ s.Cut items [] ∧
      (sample.parse ["build", "-i", "1", "-2", "--", "x", "--ids", "3", "-n", "a", "--name",
        "-n"]).1.scope id = .ok s' ∧
      s'.positional.values = Item.positionals items ∧
      ∀ index f, s.flags[index]? = some f → ∃ v, s'.flags[index]? = some { f with value := v } ∧
        f.Ends (Item.occurrences index items) v ∧ (s.IsShadowed index f → v = f.default) := by
  have hok : (sample.parse ["build", "-i", "1", "-2", "--", "x", "--ids", "3", "-n", "a",
      "--name", "-n"]).2 = .ok () := by decide +kernel
  obtain ⟨id, s, s', items, hselects, hscope, hcut, _, hscope', hvalues, _, hflags⟩ :=
    parse_values_eq reachable_sample (by decide +kernel) (Prod.ext rfl hok)
  exact ⟨id, s, s', items, hselects, hscope, hcut, hscope', hvalues, hflags⟩

end Registry

end CommandLine

import CommandLine.Session
import CommandLine.Proofs.Growth

/-!
# Reading through handles

A handle is the number of a registry and a place in it. What stands in the place stays there, so the
handle leads to it for as long as the registry lives.

1. `Gives`: an operation succeeds and gives a handle. The handle then leads to what the operation
   has declared (`Gives.leads`), in the registry and in every one that extends it (`Leads.extends`).
2. A handle that leads to a declaration can be read (`Leads.answers`); one that another registry
   gave is refused (`denies_of_registry_ne`).
3. Places are never shared: a new flag has a place that no earlier one has (`Gives.not_taken`).
-/

namespace CommandLine

/-- A handle of any sort. -/
inductive Handle where
  | value (h : ValueHandle)
  | subcommand (h : SubcommandHandle)
  | positional (h : PositionalHandle)

namespace Handle

/-- The number of the registry that gave the handle. -/
def registry : Handle → Nat
  | .value (.scalar _ h) => h.registry
  | .value (.list _ h) => h.registry
  | .subcommand h => h.registry
  | .positional h => h.registry

/-- The place of the flag that the handle is for: its scope, and its index there. -/
def place? : Handle → Option (ScopeId × Nat)
  | .value (.scalar _ h) => some (h.scope, h.index)
  | .value (.list _ h) => some (h.scope, h.index)
  | .subcommand _ => none
  | .positional _ => none

end Handle

/-! ## Values at their own kind -/

theorem Value.scalar?_scalar {k : Kind} (x : k.Carrier) : (Value.scalar k x).scalar? k = some x := by
  simp [scalar?, Kind.cast?]

theorem Value.list?_list {k : Kind} (items : List k.Carrier) :
    (Value.list ⟨k, items⟩).list? k = some items := by
  simp [list?, ValueList.as?]

namespace Registry

/-! ## Places -/

/-- There is a flag at a place. -/
def Taken (r : Registry) (place : ScopeId × Nat) : Prop :=
  ∃ s f, r.scope place.1 = .ok s ∧ s.flags[place.2]? = some f

theorem Extends.exists_flag {r r' : Registry} (h : r.Extends r') {id : ScopeId} {index : Nat}
    {s : Scope} {f : Flag} (hs : r.scope id = .ok s) (hf : s.flags[index]? = some f) :
    ∃ s' f', r'.scope id = .ok s' ∧ s'.flags[index]? = some f' ∧ f'.cleared = f.cleared := by
  obtain ⟨s', hs', more, hmore⟩ := h.scope id s hs
  have hcleared : s.declarations[index]? = some f.cleared := by
    rw [Scope.declarations, List.getElem?_map, hf]
    rfl
  have hlt := (List.getElem?_eq_some_iff.mp hcleared).1
  have hcleared' : s'.declarations[index]? = some f.cleared := by
    rw [← hmore, List.getElem?_append_left hlt, hcleared]
  rw [Scope.declarations, List.getElem?_map] at hcleared'
  obtain ⟨f', hf', heq⟩ := Option.map_eq_some_iff.mp hcleared'
  exact ⟨s', f', hs', hf', heq⟩

theorem Keeps.exists_flag {r r' : Registry} (h : r.Keeps r') {id : ScopeId} {index : Nat}
    {s : Scope} {f : Flag} (hs : r.scope id = .ok s) (hf : s.flags[index]? = some f) :
    ∃ s', r'.scope id = .ok s' ∧ s'.flags[index]? = some f := by
  obtain ⟨s', hs', ⟨more, hmore⟩, _⟩ := h.scope id s hs
  refine ⟨s', hs', ?_⟩
  rw [← hmore, List.getElem?_append_left (List.getElem?_eq_some_iff.mp hf).1, hf]

theorem Extends.taken {r r' : Registry} (h : r.Extends r') {place : ScopeId × Nat}
    (htaken : r.Taken place) : r'.Taken place := by
  obtain ⟨s, f, hs, hf⟩ := htaken
  obtain ⟨s', f', hs', hf', _⟩ := h.exists_flag hs hf
  exact ⟨s', f', hs', hf'⟩

theorem ok_bind {α β : Type} (a : α) (f : α → Except Error β) : (Except.ok a >>= f) = f a := rfl

theorem flagAt_eq_ok {r : Registry} {owner index : Nat} {id : ScopeId} {s : Scope} {f : Flag}
    (howner : owner = r.id) (hs : r.scope id = .ok s) (hf : s.flags[index]? = some f) :
    r.flagAt owner id index = .ok f := by
  unfold flagAt checkOwner
  rw [if_pos howner, ok_bind, hs, ok_bind, hf]
  rfl

theorem flagAt_of_ne {r : Registry} {owner : Nat} (howner : owner ≠ r.id) (id : ScopeId)
    (index : Nat) :
    r.flagAt owner id index = .error (.internal "handle from another registry") := by
  unfold flagAt checkOwner
  rw [if_neg howner]
  rfl

theorem get_of_flagAt {r : Registry} {k : Kind} {h : FlagHandle k} {f : Flag}
    (hflag : r.flagAt h.registry h.scope h.index = .ok f) : r.get h = scalarOf f k f.value := by
  unfold get
  rw [hflag, ok_bind]

theorem defaultOf_of_flagAt {r : Registry} {k : Kind} {h : FlagHandle k} {f : Flag}
    (hflag : r.flagAt h.registry h.scope h.index = .ok f) :
    r.defaultOf h = scalarOf f k f.default := by
  unfold defaultOf
  rw [hflag, ok_bind]

/-- A flag that there is keeps its reading, whoever asks for it. -/
theorem Keeps.flagAt_eq {r r' : Registry} (h : r.Keeps r') {id : ScopeId} {index : Nat}
    (htaken : r.Taken (id, index)) (owner : Nat) :
    r'.flagAt owner id index = r.flagAt owner id index := by
  obtain ⟨s, f, hs, hf⟩ := htaken
  obtain ⟨s', hs', hf'⟩ := h.exists_flag hs hf
  by_cases howner : owner = r.id
  · rw [flagAt_eq_ok howner hs hf, flagAt_eq_ok (howner.trans h.id_eq.symm) hs' hf']
  · rw [flagAt_of_ne howner, flagAt_of_ne (h.id_eq ▸ howner)]

/-! ## Handles that operations give -/

/-- An operation succeeds on a registry and gives a handle. -/
inductive Gives (r : Registry) : Operation → Handle → Prop
  | flag {long : String} {short : Option Char} {k : Kind} {default : k.Carrier}
      {description : String} {scope? : Option String} {h : FlagHandle k}
      (hok : (r.declareFlag long short k default description scope?).2 = .ok h) :
      Gives r (.declareFlag long short k default description scope?) (.value (.scalar k h))
  | list {long : String} {short : Option Char} {k : Kind} {description : String}
      {scope? : Option String} {h : ListHandle k}
      (hok : (r.declareListFlag long short k description scope?).2 = .ok h) :
      Gives r (.declareListFlag long short k description scope?) (.value (.list k h))
  | subcommand {name description : String} {h : SubcommandHandle}
      (hok : (r.declareSubcommand name description).2 = .ok h) :
      Gives r (.declareSubcommand name description) (.subcommand h)
  | positional {name description : String} {scope? : Option String} {h : PositionalHandle}
      (hok : (r.declarePositional name description scope?).2 = .ok h) :
      Gives r (.declarePositional name description scope?) (.positional h)

/-- A handle belongs to a registry and leads to what an operation declares: a flag of the kind, the
shape and the default, a subcommand of the name, or a scope. -/
inductive Leads (r : Registry) : Operation → Handle → Prop
  | flag {long : String} {short : Option Char} {k : Kind} {default : k.Carrier}
      {description : String} {scope? : Option String} {h : FlagHandle k} {s : Scope} {f : Flag}
      (howner : h.registry = r.id) (hs : r.scope h.scope = .ok s)
      (hf : s.flags[h.index]? = some f) (hlist : f.isList = false) (hkind : f.kind = k)
      (hdefault : f.default = .scalar k default) :
      Leads r (.declareFlag long short k default description scope?) (.value (.scalar k h))
  | list {long : String} {short : Option Char} {k : Kind} {description : String}
      {scope? : Option String} {h : ListHandle k} {s : Scope} {f : Flag}
      (howner : h.registry = r.id) (hs : r.scope h.scope = .ok s)
      (hf : s.flags[h.index]? = some f) (hlist : f.isList = true) (hkind : f.kind = k) :
      Leads r (.declareListFlag long short k description scope?) (.value (.list k h))
  | subcommand {name description : String} {h : SubcommandHandle} (howner : h.registry = r.id)
      (hname : (r.subcommands.map (·.name))[h.slot]? = some name) :
      Leads r (.declareSubcommand name description) (.subcommand h)
  | positional {name description : String} {scope? : Option String} {h : PositionalHandle}
      {s : Scope} (howner : h.registry = r.id) (hs : r.scope h.scope = .ok s) :
      Leads r (.declarePositional name description scope?) (.positional h)

theorem declared_eq_ok {α : Type} {r : Registry} {result : Except Error (Registry × α)} {a : α}
    (h : (r.declared result).2 = .ok a) : result = .ok ((r.declared result).1, a) := by
  rcases result with e | ⟨r', a'⟩
  · cases h
  · cases h
    rfl

/-- A flag, of either shape, goes to the end of its scope, and its handle says so. -/
theorem declared_addFlag_eq_ok {α : Type} {r : Registry} {flag : Flag} {scope? : Option String}
    {mk : ScopeId → Nat → α} {a : α}
    (h : (r.declared ((r.addFlag flag scope?).map fun (r', id, index) => (r', mk id index))).2 =
      .ok a) :
    ∃ id s, r.scope id = .ok s ∧ a = mk id s.flags.length ∧
      (r.declared ((r.addFlag flag scope?).map fun (r', id, index) => (r', mk id index))).1 =
        r.setScope { s with flags := s.flags ++ [flag] } id := by
  obtain ⟨⟨r', id, index⟩, hadd, heq⟩ := map_eq_ok.mp (declared_eq_ok h)
  obtain ⟨_, _, s, hs, _, rfl, rfl⟩ := addFlag_eq_ok hadd
  obtain ⟨hfst, hsnd⟩ := Prod.mk.inj heq
  exact ⟨id, s, hs, hsnd.symm, hfst.symm⟩

theorem declareSubcommand_eq_ok {r : Registry} {name description : String} {h : SubcommandHandle}
    (hok : (r.declareSubcommand name description).2 = .ok h) :
    h = ⟨r.id, r.subcommands.length⟩ ∧ ∃ names, (r.declareSubcommand name description).1 =
      ({ r with
        names := names
        subcommands := r.subcommands ++ [{ name := name, description := description }] } :
        Registry).declareHelp (some name) := by
  rcases r.declareSubcommand_cases name description with ⟨_, heq⟩ | ⟨_, ⟨_, heq⟩ |
    ⟨_, _, _, _, heq⟩ | ⟨names, _, heq⟩⟩
  · rw [heq] at hok
    cases hok
  · rw [heq] at hok
    cases hok
  · rw [heq] at hok
    cases hok
  · rw [heq] at hok ⊢
    exact ⟨(Except.ok.inj hok).symm, names, rfl⟩

theorem declarePositional_eq_ok {r : Registry} {name description : String}
    {scope? : Option String} {h : PositionalHandle}
    (hok : (r.declarePositional name description scope?).2 = .ok h) :
    h.registry = r.id ∧ ∃ s, r.scope h.scope = .ok s := by
  obtain ⟨id, _, hadd⟩ := bind_eq_ok.mp (declared_eq_ok hok)
  obtain ⟨s, hs, hadd⟩ := bind_eq_ok.mp hadd
  obtain rfl : (⟨r.id, id⟩ : PositionalHandle) = h := congrArg Prod.snd (Except.ok.inj hadd)
  exact ⟨rfl, s, hs⟩

/-- The flag of a handle is the last one of its scope when the handle is given. -/
theorem Gives.exists_setScope {r : Registry} {operation : Operation} {handle : Handle}
    (h : r.Gives operation handle) {place : ScopeId × Nat} (hplace : handle.place? = some place) :
    ∃ s f, r.scope place.1 = .ok s ∧ place.2 = s.flags.length ∧
      r.perform operation = r.setScope { s with flags := s.flags ++ [f] } place.1 := by
  cases h with
  | flag hok =>
    obtain ⟨id, s, hs, rfl, hr'⟩ := declared_addFlag_eq_ok hok
    obtain rfl := Option.some.inj hplace
    exact ⟨s, _, hs, rfl, hr'⟩
  | list hok =>
    obtain ⟨id, s, hs, rfl, hr'⟩ := declared_addFlag_eq_ok hok
    obtain rfl := Option.some.inj hplace
    exact ⟨s, _, hs, rfl, hr'⟩
  | subcommand hok => cases hplace
  | positional hok => cases hplace

theorem Gives.not_taken {r : Registry} {operation : Operation} {handle : Handle}
    (h : r.Gives operation handle) {place : ScopeId × Nat} (hplace : handle.place? = some place) :
    ¬ r.Taken place := by
  obtain ⟨s, _, hs, hindex, _⟩ := h.exists_setScope hplace
  rintro ⟨s', f, hs', hf⟩
  obtain rfl := Except.ok.inj (hs.symm.trans hs')
  rw [hindex, List.getElem?_eq_none (Nat.le_refl _)] at hf
  cases hf

/-- The flag that was added is found at the end of its scope. -/
theorem exists_flag_setScope {r : Registry} {id : ScopeId} {s : Scope} (hs : r.scope id = .ok s)
    (f : Flag) : ∃ s', (r.setScope { s with flags := s.flags ++ [f] } id).scope id = .ok s' ∧
      s'.flags[s.flags.length]? = some f := by
  refine ⟨_, (scope_setScope hs _ id).trans (if_pos rfl), ?_⟩
  simp

theorem Gives.taken {r : Registry} {operation : Operation} {handle : Handle}
    (h : r.Gives operation handle) {place : ScopeId × Nat} (hplace : handle.place? = some place) :
    (r.perform operation).Taken place := by
  obtain ⟨s, f, hs, hindex, hr'⟩ := h.exists_setScope hplace
  obtain ⟨s', hs', hf⟩ := exists_flag_setScope hs f
  rw [hr']
  exact ⟨s', f, hs', hindex ▸ hf⟩

theorem id_setScope (r : Registry) (t : Scope) (id : ScopeId) : (r.setScope t id).id = r.id := by
  cases id <;> rfl

/-- A handle that an operation gives leads to what the operation declares. -/
theorem Gives.leads {r : Registry} {operation : Operation} {handle : Handle}
    (h : r.Gives operation handle) : (r.perform operation).Leads operation handle := by
  cases h with
  | flag hok =>
    obtain ⟨id, s, hs, rfl, hr'⟩ := declared_addFlag_eq_ok hok
    obtain ⟨s', hs', hf⟩ := exists_flag_setScope hs _
    rw [show r.perform (.declareFlag ..) = _ from hr']
    exact .flag (id_setScope _ _ _).symm hs' hf rfl rfl rfl
  | list hok =>
    obtain ⟨id, s, hs, rfl, hr'⟩ := declared_addFlag_eq_ok hok
    obtain ⟨s', hs', hf⟩ := exists_flag_setScope hs _
    rw [show r.perform (.declareListFlag ..) = _ from hr']
    exact .list (id_setScope _ _ _).symm hs' hf rfl rfl
  | @subcommand name description _ hok =>
    obtain ⟨rfl, names, hr'⟩ := declareSubcommand_eq_ok hok
    rw [show r.perform (.declareSubcommand ..) = _ from hr']
    -- the help flag comes after the subcommand and leaves it where it is
    have hkeeps := keeps_of_edits (declareHelp_edits ({ r with
      names := names
      subcommands := r.subcommands ++ [{ name := name, description := description }] } : Registry)
      (some name))
    obtain ⟨more, hmore⟩ := hkeeps.names
    refine .subcommand hkeeps.id_eq.symm ?_
    rw [← hmore]
    simp
  | @positional name description scope? _ hok =>
    obtain ⟨howner, s, hs⟩ := declarePositional_eq_ok hok
    have hkeeps := keeps_of_edits (declarePositional_edits r name description scope?)
    obtain ⟨s', hs', _⟩ := hkeeps.scope _ s hs
    exact .positional (howner.trans hkeeps.id_eq.symm) hs'

theorem Leads.registry_eq {r : Registry} {operation : Operation} {handle : Handle}
    (h : r.Leads operation handle) : handle.registry = r.id := by
  cases h with
  | flag howner => exact howner
  | list howner => exact howner
  | subcommand howner => exact howner
  | positional howner => exact howner

/-- A handle leads to the same declaration in every registry that extends its own. -/
theorem Leads.extends {r r' : Registry} {operation : Operation} {handle : Handle}
    (h : r.Leads operation handle) (hextends : r.Extends r') : r'.Leads operation handle := by
  have hid := hextends.id_eq.symm
  cases h with
  | flag howner hs hf hlist hkind hdefault =>
    -- the value may be another by now, the kind, the shape and the default are not
    obtain ⟨s', f', hs', hf', hclear⟩ := hextends.exists_flag hs hf
    exact .flag (howner.trans hid) hs' hf' ((Flag.isList_eq_of_cleared_eq hclear).trans hlist)
      ((Flag.kind_eq_of_cleared_eq hclear).trans hkind)
      ((Flag.default_eq_of_cleared_eq hclear).trans hdefault)
  | list howner hs hf hlist hkind =>
    obtain ⟨s', f', hs', hf', hclear⟩ := hextends.exists_flag hs hf
    exact .list (howner.trans hid) hs' hf' ((Flag.isList_eq_of_cleared_eq hclear).trans hlist)
      ((Flag.kind_eq_of_cleared_eq hclear).trans hkind)
  | subcommand howner hname =>
    obtain ⟨more, hmore⟩ := hextends.names
    refine .subcommand (howner.trans hid) ?_
    rw [← hmore, List.getElem?_append_left (List.getElem?_eq_some_iff.mp hname).1, hname]
  | positional howner hs =>
    obtain ⟨s', hs', _⟩ := hextends.scope _ _ hs
    exact .positional (howner.trans hid) hs'

/-! ## What handles read -/

/-- A registry answers through a handle as the operation that gave it promises: a single value can
be read at its kind and its default is the declared one, a list and positional values can be read,
and a subcommand has the name and tells its mark. -/
inductive Answers (r : Registry) : Operation → Handle → Prop
  | flag {long : String} {short : Option Char} {k : Kind} {default : k.Carrier}
      {description : String} {scope? : Option String} {h : FlagHandle k}
      (hget : ∃ x, r.get h = .ok x) (hdefault : r.defaultOf h = .ok default) :
      Answers r (.declareFlag long short k default description scope?) (.value (.scalar k h))
  | list {long : String} {short : Option Char} {k : Kind} {description : String}
      {scope? : Option String} {h : ListHandle k} (hlist : ∃ xs, r.list h = .ok xs) :
      Answers r (.declareListFlag long short k description scope?) (.value (.list k h))
  | subcommand {name description : String} {h : SubcommandHandle} {sub : Subcommand}
      (hsub : r.subcommands[h.slot]? = some sub) (hname : sub.name = name)
      (hactive : r.isActive h = sub.isActive) :
      Answers r (.declareSubcommand name description) (.subcommand h)
  | positional {name description : String} {scope? : Option String} {h : PositionalHandle}
      (hvalues : ∃ texts, r.positionals h = .ok texts) :
      Answers r (.declarePositional name description scope?) (.positional h)

/-- A registry does not answer through a handle: reading fails internally, and no subcommand counts
as selected. -/
def Denies (r : Registry) : Handle → Prop
  | .value (.scalar _ h) =>
    r.get h = .error (.internal "handle from another registry") ∧
      r.defaultOf h = .error (.internal "handle from another registry")
  | .value (.list _ h) => r.list h = .error (.internal "handle from another registry")
  | .subcommand h => r.isActive h = false
  | .positional h => r.positionals h = .error (.internal "handle from another registry")

theorem Leads.answers {r : Registry} {operation : Operation} {handle : Handle}
    (h : r.Leads operation handle) : r.Answers operation handle := by
  cases h with
  | flag howner hs hf hlist hkind hdefault =>
    have hflag := flagAt_eq_ok howner hs hf
    obtain ⟨x, hx⟩ := Value.exists_eq_scalar hlist hkind
    refine .flag ⟨x, ?_⟩ ?_
    · rw [get_of_flagAt hflag, scalarOf, hx, Value.scalar?_scalar]
    · rw [defaultOf_of_flagAt hflag, scalarOf, hdefault, Value.scalar?_scalar]
  | list howner hs hf hlist hkind =>
    obtain ⟨items, hitems⟩ := Value.exists_eq_list hlist hkind
    refine .list ⟨items, ?_⟩
    unfold Registry.list
    rw [flagAt_eq_ok howner hs hf, ok_bind, hitems, Value.list?_list]
    rfl
  | subcommand howner hname =>
    rw [List.getElem?_map] at hname
    obtain ⟨sub, hsub, hname⟩ := Option.map_eq_some_iff.mp hname
    refine .subcommand hsub hname ?_
    simp [isActive, isSelected, howner, hsub]
  | @positional _ _ _ _ s howner hs =>
    refine .positional ⟨s.positional.values, ?_⟩
    unfold positionals checkOwner
    rw [if_pos howner, ok_bind, hs]
    rfl

theorem denies_of_registry_ne {r : Registry} {handle : Handle} (h : handle.registry ≠ r.id) :
    r.Denies handle := by
  match handle, h with
  | .value (.scalar k h), hne =>
    have hne' : h.registry ≠ r.id := hne
    have hflag := flagAt_of_ne hne' h.scope h.index
    show r.get h = _ ∧ r.defaultOf h = _
    unfold get defaultOf
    rw [hflag]
    exact ⟨rfl, rfl⟩
  | .value (.list k h), hne =>
    have hne' : h.registry ≠ r.id := hne
    have hflag := flagAt_of_ne hne' h.scope h.index
    show r.list h = _
    unfold list
    rw [hflag]
    rfl
  | .subcommand h, hne =>
    have hne' : h.registry ≠ r.id := hne
    simp [Denies, isActive, hne']
  | .positional h, hne =>
    have hne' : h.registry ≠ r.id := hne
    show r.positionals h = _
    unfold positionals checkOwner
    rw [if_neg hne']
    rfl

end Registry

end CommandLine

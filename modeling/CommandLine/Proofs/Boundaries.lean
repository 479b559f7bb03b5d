import CommandLine.Proofs.Invariant

/-!
# Item boundaries

Two runs from one registry, on a command line and on a front part of it that ends between items.

1. A run that fails leaves what the run on the tokens before the failing item leaves, and the
   failure is that of the first token of the item (`run_error_exists_boundary`).
2. A separator is a checkpoint: the tokens after it are read from where the run on the tokens before
   it ends (`run_append_separator`).
3. A separator is transparent where no list goes on and no scope is still to be selected: the line
   without it gives the same (`run_append_separator_eq`).

In all of them the front part is cut as before (`Scope.Cut.of_head?`, `Scope.Cut.append`), because a
list that goes on to its end stops there, at a separator, and at what looks like a flag to it.
-/

namespace CommandLine

theorem Scope.Refuses.unique {limit : Nat} {s : Scope} {token : String} {rest : List String}
    {e e' : Error} (h : s.Refuses limit token rest e) (h' : s.Refuses limit token rest e') :
    e = e' :=
  Except.error.inj ((step_of_refuses h).symm.trans (step_of_refuses h'))

/-- A separator after a cut is read with it. -/
theorem Scope.feed_append_separator {limit : Nat} {s : Scope} {items : List Item}
    (hcut : s.Cut items []) (hroom : s.Room limit items) (tokens : List String) :
    s.feed limit (Item.line items ++ "--" :: tokens) = (s.afterAll items).feed limit tokens := by
  have hcut' : s.Cut items ("--" :: tokens) := by
    apply hcut.of_head?
    intro token htoken
    exact .inr (Option.some.inj htoken).symm
  rw [feed_of_cut hcut' hroom]
  exact feed_of_fits .separator (.inl rfl)

namespace Registry

/-! ## Front parts of a command line -/

/-- A front part of the tokens that remain belongs to a front part of the line, which selects the
same scope. -/
theorem Selects.exists_front {r : Registry} {args tokens more : List String} {id : ScopeId}
    (h : r.Selects args id (tokens ++ more)) :
    ∃ front, args = front ++ more ∧ r.Selects front id tokens := by
  rcases h with ⟨hid, htokens, hglobal⟩ | ⟨first, slot, sub, hargs, hdash, hsub, hname, hid⟩
  · refine ⟨tokens, htokens.symm, .inl ⟨hid, rfl, ?_⟩⟩
    cases tokens with
    | nil => exact .inl rfl
    | cons token tokens =>
      subst htokens
      rcases hglobal with h | h | h
      · cases h
      · exact .inr (.inl h)
      · exact .inr (.inr h)
  · exact ⟨first :: tokens, hargs, .inr ⟨first, slot, sub, rfl, hdash, hsub, hname, hid⟩⟩

/-- More tokens at the end of a line do not change what it selects, unless the line is empty and
they start with what may name a subcommand. -/
theorem Selects.append {r : Registry} {args tokens more : List String} {id : ScopeId}
    (h : r.Selects args id tokens)
    (hmore : args ≠ [] ∨ r.subcommands = [] ∨
      more = [] ∨ ∃ token ∈ more.head?, startsWithDash token = true) :
    r.Selects (args ++ more) id (tokens ++ more) := by
  rcases h with ⟨hid, rfl, hglobal⟩ | ⟨first, slot, sub, rfl, hdash, hsub, hname, hid⟩
  · refine .inl ⟨hid, rfl, ?_⟩
    cases tokens with
    | nil =>
      -- the tokens added are the whole line
      rcases hmore with h | h | h | h
      · exact absurd rfl h
      · exact .inr (.inl h)
      · exact .inl h
      · exact .inr (.inr h)
    | cons token tokens =>
      rcases hglobal with h | h | h
      · cases h
      · exact .inr (.inl h)
      · exact .inr (.inr h)
  · exact .inr ⟨first, slot, sub, rfl, hdash, hsub, hname, hid⟩

theorem Selects.append_separator {r : Registry} {args tokens : List String} {id : ScopeId}
    (h : r.Selects args id tokens) (more : List String) :
    r.Selects (args ++ "--" :: more) id (tokens ++ "--" :: more) :=
  h.append (.inr (.inr (.inr ⟨"--", rfl, rfl⟩)))

theorem setScope_setScope (r : Registry) (s t : Scope) (id : ScopeId) :
    (r.setScope s id).setScope t id = r.setScope t id := by
  cases id with
  | global => rfl
  | subcommand slot =>
    unfold setScope
    simp only [List.modify_modify_eq]
    rfl

theorem run_nil (r : Registry) : r.run [] = (r, .ok ()) := by
  unfold run select feed
  simp only [scope, Scope.feed_nil]
  rfl

/-! ## Where a failing run stops -/

/-- **Failure at a boundary.** A run that fails stops between two items. The run on the tokens
before the failing one succeeds and leaves the same registry. The failure is that of an undeclared
name in the first place, or the one with which the selected scope, as it is left, refuses the
token. -/
theorem run_error_exists_boundary {r r' : Registry} (hr : r.Reachable) {args : List String}
    {e : Error} (h : r.run args = (r', .error e)) :
    ∃ front token rest, args = front ++ token :: rest ∧ r.run front = (r', .ok ()) ∧
      ((front = [] ∧ r.subcommands ≠ [] ∧ startsWithDash token = false ∧
          (∀ sub ∈ r.subcommands, sub.name ≠ token) ∧ e = .unknownSubcommand token) ∨
        ∃ id tokens s, r.Selects front id tokens ∧ r.Selects args id (tokens ++ token :: rest) ∧
          r'.scope id = .ok s ∧ s.Refuses r.config.maxPositionals token rest e ∧
          ∀ e', s.Refuses r.config.maxPositionals token rest e' → e' = e) := by
  rcases run_spec hr.names_agree args with ⟨first, rest, rfl, hsubs, hdash, hnone, hrun⟩ |
    ⟨id, s, items, rest, hselects, hscope, hcut, hroom, ⟨_, hrun⟩ |
      ⟨token, more, e', rfl, hfails, hrun⟩⟩
  · obtain ⟨rfl, herr⟩ := Prod.mk.inj (hrun.symm.trans h)
    exact ⟨[], first, rest, rfl, r.run_nil, .inl ⟨rfl, hsubs, hdash, hnone,
      (Except.error.inj herr).symm⟩⟩
  · cases congrArg Prod.snd (hrun.symm.trans h)
  · obtain ⟨rfl, herr⟩ := Prod.mk.inj (hrun.symm.trans h)
    obtain rfl := Except.error.inj herr
    obtain ⟨front, hargs, hfront⟩ := hselects.exists_front
    have hcut' : s.Cut items [] := hcut.of_head? fun token htoken => by cases htoken
    have hrefuses := hfails.refuses (Scope.kind_list_afterAll (hr.holdsTexts id s hscope) items)
    exact ⟨front, token, more, hargs, run_of_cut hr.names_agree hfront hscope hcut' hroom,
      .inr ⟨id, _, _, hfront, hselects, scope_setScope_selected hscope _, hrefuses,
        fun e' he' => he'.unique hrefuses⟩⟩

theorem run_error_exists_boundary_sample :
    ∃ front token rest,
      ["build", "x", "-i", "1", "--ids", "2", "300", "-7"] = front ++ token :: rest ∧
      sample.run front =
        ((sample.run ["build", "x", "-i", "1", "--ids", "2", "300", "-7"]).1, .ok ()) ∧
      ∃ id tokens s, sample.Selects front id tokens ∧
        (sample.run ["build", "x", "-i", "1", "--ids", "2", "300", "-7"]).1.scope id = .ok s ∧
        s.Refuses sample.config.maxPositionals token rest (.invalidNumber "300") := by
  have herr : (sample.run ["build", "x", "-i", "1", "--ids", "2", "300", "-7"]).2 =
      .error (.invalidNumber "300") := by decide +kernel
  obtain ⟨front, token, rest, hargs, hrun, ⟨_, _, _, _, he⟩ |
      ⟨id, tokens, s, hfront, _, hscope, hrefuses, _⟩⟩ :=
    run_error_exists_boundary reachable_sample (Prod.ext rfl herr)
  · cases he
  · exact ⟨front, token, rest, hargs, hrun, id, tokens, s, hfront, hscope, hrefuses⟩

/-! ## Separators -/

/-- **Checkpoint.** After tokens whose run succeeds, a separator and more tokens give what the
selected scope makes of these tokens in the registry that the run leaves. -/
theorem run_append_separator {r r' : Registry} (hr : r.Reachable) {front : List String}
    (h : r.run front = (r', .ok ())) :
    ∃ id tokens, r.Selects front id tokens ∧ (front = [] → id = .global) ∧
      ∀ more, r.run (front ++ "--" :: more) = r'.feed id more := by
  obtain ⟨id, s, items, hselects, hscope, hcut, hroom, rfl⟩ :=
    exists_cut_of_run_eq_ok hr.names_agree h
  refine ⟨id, Item.line items, hselects, ?_, fun more => ?_⟩
  · rintro rfl
    rcases hselects with ⟨hid, _, _⟩ | ⟨first, _, _, hargs, _⟩
    · exact hid
    · cases hargs
  · have hscope' := scope_setScope_selected hscope (s.afterAll items)
    rw [run_eq hr.names_agree (hselects.append_separator more) hscope,
      Scope.feed_append_separator hcut hroom, feed_eq hscope', setScope_setScope, config_setScope,
      config_selected]

theorem run_append_separator_sample :
    ∃ id tokens, sample.Selects ["build", "-i", "1", "-2"] id tokens ∧
      ∀ more, sample.run (["build", "-i", "1", "-2"] ++ "--" :: more) =
        (sample.run ["build", "-i", "1", "-2"]).1.feed id more := by
  have hok : (sample.run ["build", "-i", "1", "-2"]).2 = .ok () := by decide +kernel
  obtain ⟨id, tokens, hselects, _, hrun⟩ :=
    run_append_separator reachable_sample (Prod.ext rfl hok)
  exact ⟨id, tokens, hselects, hrun⟩

/-- The last item of a line stops at the tokens after the line, in the scope that the line
selects. -/
def LineStops (r : Registry) (front more : List String) : Prop :=
  ∀ id s items, r.Selects front id (Item.line items) → r.scope id = .ok s → s.Cut items [] →
    ∀ item ∈ items.getLast?, item.Stops s more

/-- **Transparency.** After tokens whose run succeeds, a separator before more tokens changes
nothing, neither the result nor the registry. Two cases are left out: a list at the end of the first
tokens that would go on into the others, and an empty front before a token without a dash where
there are subcommands. -/
theorem run_append_separator_eq {r r' : Registry} (hr : r.Reachable) {front more : List String}
    (h : r.run front = (r', .ok ())) (hstops : r.LineStops front more)
    (hmore : front ≠ [] ∨ r.subcommands = [] ∨
      more = [] ∨ ∃ token ∈ more.head?, startsWithDash token = true) :
    r.run (front ++ "--" :: more) = r.run (front ++ more) := by
  obtain ⟨id, s, items, hselects, hscope, hcut, hroom, _⟩ :=
    exists_cut_of_run_eq_ok hr.names_agree h
  have hcut' : s.Cut items more := hcut.append (hstops id s items hselects hscope hcut)
  -- both lines select the same scope, which reads the same cut and then the same tokens
  rw [run_eq hr.names_agree (hselects.append_separator more) hscope,
    run_eq hr.names_agree (hselects.append hmore) hscope,
    Scope.feed_append_separator hcut hroom, Scope.feed_of_cut hcut' hroom]

theorem run_append_separator_eq_sample :
    sample.run (["build", "x", "-i", "1", "-2"] ++ "--" :: ["-n", "a", "-ab", "y"]) =
      sample.run (["build", "x", "-i", "1", "-2"] ++ ["-n", "a", "-ab", "y"]) := by
  have hok : (sample.run ["build", "x", "-i", "1", "-2"]).2 = .ok () := by decide +kernel
  refine run_append_separator_eq reachable_sample (Prod.ext rfl hok) ?_ (.inl (by simp))
  intro id s items _ _ _ item _
  cases item with
  | separator => trivial
  | positional text => trivial
  | flag index token values =>
    intro f _ _ next hnext
    obtain rfl := Option.some.inj hnext
    cases f.kind.isNumeric <;> rfl

-- Neither condition can be dropped: a list takes the token behind the separator, and a name in the
-- first place selects a subcommand.
example : (sample.run ["--tags", "a", "--", "b"]).1.global ≠
    (sample.run ["--tags", "a", "b"]).1.global := by decide +kernel

example : (sample.run ["--", "build"]).1.active ≠ (sample.run ["build"]).1.active := by
  decide +kernel

end Registry

end CommandLine

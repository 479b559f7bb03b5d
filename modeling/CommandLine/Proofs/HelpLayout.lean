import CommandLine.Proofs.Invariant

/-!
# The columns of a help text

A help text has sections of rows, one row for each thing that is declared. In a row, a mark and a
name are followed by blanks up to the column of the descriptions.

1. `widest` is a width in the sense of `IsWidth`: no name is longer, and one of them reaches it
   (`isWidth_widest`).
2. So the blanks behind a name fill up its row to a column that does not depend on the name
   (`isRow_row`), and behind a long name there is always the gap (`isFlagRow_flagRow`).
3. All flags of a reachable registry have names, hence rows. `Registry.help_layout` puts the
   sections together.
-/

namespace CommandLine.Help

/-! ## Widths -/

/-- A width is that of the longest of some names, and zero if there are none. -/
structure IsWidth (names : List String) (width : Nat) : Prop where
  le : ∀ name ∈ names, name.length ≤ width
  reached : width = 0 ∨ ∃ name ∈ names, name.length = width

theorem IsWidth.unique {names : List String} {width width' : Nat} (h : IsWidth names width)
    (h' : IsWidth names width') : width = width' := by
  have hle : ∀ {a b : Nat}, IsWidth names a → IsWidth names b → a ≤ b := by
    intro a b ha hb
    rcases ha.reached with rfl | ⟨name, hname, rfl⟩
    · exact Nat.zero_le b
    · exact hb.le name hname
  exact Nat.le_antisymm (hle h h') (hle h' h)

theorem widest_cons (start : Nat) (name : String) (names : List String) :
    widest start (name :: names) = widest (max start name.length) names := rfl

theorem widest_eq_max (start : Nat) (names : List String) :
    widest start names = max start (widest 0 names) := by
  induction names generalizing start with
  | nil => exact (Nat.max_zero start).symm
  | cons name names ih =>
    rw [widest_cons, widest_cons, ih, ih (max 0 name.length)]
    omega

theorem isWidth_widest (names : List String) : IsWidth names (widest 0 names) := by
  induction names with
  | nil => exact ⟨fun name hname => absurd hname List.not_mem_nil, .inl rfl⟩
  | cons name names ih =>
    rw [widest_cons, widest_eq_max]
    refine ⟨List.forall_mem_cons.mpr ⟨by omega, fun other hother => ?_⟩, ?_⟩
    · have := ih.le other hother
      omega
    · -- the longest name is the first one or one of the others
      by_cases hle : widest 0 names ≤ name.length
      · exact .inr ⟨name, List.mem_cons_self, by omega⟩
      · rcases ih.reached with hzero | ⟨other, hother, heq⟩
        · omega
        · exact .inr ⟨other, List.mem_cons_of_mem _ hother, by omega⟩

/-- The names that share a column in the sections of a scope. -/
def names (s : Scope) : List String := s.positional.name.toList ++ s.flags.filterMap (·.long)

theorem scopeWidth_eq_widest (s : Scope) : scopeWidth s = widest 0 (names s) := by
  unfold scopeWidth names
  rcases s.positional.name with _ | name
  · rfl
  · show widest name.length _ = widest (max 0 name.length) (s.flags.filterMap (·.long))
    rw [Nat.zero_max]

theorem isWidth_scopeWidth (s : Scope) : IsWidth (names s) (scopeWidth s) := by
  rw [scopeWidth_eq_widest]
  exact isWidth_widest (names s)

/-! ## Rows -/

/-- A row in which the description starts at a column: before it stand a mark, a name and blanks. -/
structure IsRow (mark name : String) (blanks column : Nat) (description row : String) : Prop where
  text : row =
    mark ++ name ++ String.ofList (List.replicate blanks ' ') ++ description ++ "\n"
  column : mark.length + name.length + blanks = column

theorem isRow_row {mark name : String} {width column : Nat} (h : name.length ≤ width)
    (hcolumn : mark.length + width = column) (description : String) :
    IsRow mark name (width - name.length) column description (row mark name width description) where
  text := by
    unfold row padRight
    rw [← String.append_assoc]
  column := by omega

/-- The row of a flag, where the names of its scope have a width: it shows the long name or, if
there is none, the short one. -/
inductive IsFlagRow (width : Nat) (f : Flag) (row : String) : Prop
  | long {name : String} {blanks : Nat} (hlong : f.long = some name) (hgap : 4 ≤ blanks)
      (hrow : IsRow "    --" name blanks (width + 10) f.description row)
  | short {c : Char} {blanks : Nat} (hlong : f.long = none) (hshort : f.short = some c)
      (hrow : IsRow "    -" (String.ofList [c]) blanks (width + 9) f.description row)

theorem isFlagRow_flagRow {width : Nat} {f : Flag}
    (hnamed : f.long.isSome = true ∨ f.short.isSome = true)
    (hwidth : ∀ name, f.long = some name → name.length ≤ width) :
    IsFlagRow width f (flagRow (width + gap) f) := by
  unfold flagRow
  rcases hlong : f.long with _ | name
  · rcases hshort : f.short with _ | c
    · rw [hlong, hshort] at hnamed
      simp at hnamed
    · have hc : (String.ofList [c]).length = 1 := String.length_ofList
      exact .short hlong hshort (isRow_row (by unfold gap; omega) (Nat.add_comm 5 _) _)
  · have hle := hwidth name hlong
    exact .long hlong (by unfold gap; omega) (isRow_row (by omega) (Nat.add_comm 6 _) _)

/-- The rows of a scope's flags, one for each in the order of declaration. -/
theorem forall₂_flagRows {s : Scope}
    (hnamed : ∀ f ∈ s.flags, f.long.isSome = true ∨ f.short.isSome = true) :
    List.Forall₂ (IsFlagRow (scopeWidth s)) s.flags (flagRows s) := by
  unfold flagRows
  rw [List.forall₂_map_right_iff, List.forall₂_same]
  intro f hf
  refine isFlagRow_flagRow (hnamed f hf) fun name hlong => ?_
  refine (isWidth_scopeWidth s).le name (List.mem_append_right _ ?_)
  exact List.mem_filterMap.mpr ⟨f, hf, hlong⟩

/-- The rows of the subcommands, one for each in the order of declaration. -/
theorem forall₂_subcommandRows (r : Registry) :
    List.Forall₂ (fun sub row => ∃ blanks, IsRow "    " sub.name blanks
        (max (scopeWidth r.global) (widest 0 (r.subcommands.map (·.name))) + 8) sub.description row)
      r.subcommands (subcommandRows r) := by
  have hwidth : subcommandWidth r =
      max (scopeWidth r.global) (widest 0 (r.subcommands.map (·.name))) := widest_eq_max _ _
  unfold subcommandRows
  rw [hwidth, List.forall₂_map_right_iff, List.forall₂_same]
  intro sub hsub
  have hle := (isWidth_widest (r.subcommands.map (·.name))).le sub.name (List.mem_map_of_mem hsub)
  exact ⟨_, isRow_row (by omega) (Nat.add_comm 4 _) _⟩

/-! ## Sections -/

/-- The section of the positional argument: one row under its heading, if the argument has a
name. -/
inductive IsArgsSection (p : Positional) : String → Prop
  | unnamed (hname : p.name = none) : IsArgsSection p ""
  | named {name row : String} (hname : p.name = some name)
      (hrow : IsRow "     " name 4 (name.length + 9) p.description row) :
      IsArgsSection p ("Args:\n" ++ row)

theorem isArgsSection_positionalSection (p : Positional) :
    IsArgsSection p (positionalSection p) := by
  unfold positionalSection
  rcases hname : p.name with _ | name
  · exact .unnamed hname
  · have hrow : IsRow "     " name (name.length + gap - name.length) (name.length + 9) p.description
        (row "     " name (name.length + gap) p.description) :=
      isRow_row (by omega) (by show 5 + (name.length + 4) = _; omega) _
    rw [Nat.add_sub_cancel_left] at hrow
    exact .named hname hrow

/-- The section of the subcommands behind a scope whose names have a width: rows under a heading, if
there are any. -/
inductive IsSubcommandSection (width : Nat) (subs : List Subcommand) : String → Prop
  | none (hsubs : subs = []) : IsSubcommandSection width subs ""
  | rows {longest : Nat} {rows : List String} (hsubs : subs ≠ [])
      (hlongest : IsWidth (subs.map (·.name)) longest)
      (hrows : List.Forall₂ (fun sub row => ∃ blanks,
        IsRow "    " sub.name blanks (max width longest + 8) sub.description row) subs rows) :
      IsSubcommandSection width subs ("\nSubcommands:\n" ++ String.join rows)

theorem isSubcommandSection_subcommandSection (r : Registry) :
    IsSubcommandSection (scopeWidth r.global) r.subcommands (subcommandSection r) := by
  unfold subcommandSection
  split
  · rename_i hempty
    exact .none (List.isEmpty_iff.mp hempty)
  · rename_i hsubs
    rw [List.isEmpty_iff] at hsubs
    exact .rows hsubs (isWidth_widest _) (forall₂_subcommandRows r)

end CommandLine.Help

namespace CommandLine.Registry

/-- The scope that a help text shows is one of the registry. -/
theorem exists_scope_eq_activeScope (r : Registry) : ∃ id, r.scope id = .ok r.activeScope := by
  unfold activeScope
  rcases hactive : r.activeSubcommand with _ | sub
  · exact ⟨.global, rfl⟩
  · obtain ⟨slot, _, hsub⟩ := Option.bind_eq_some_iff.mp hactive
    exact ⟨.subcommand slot, scope_subcommand_eq_ok_iff.mpr ⟨sub, hsub, rfl⟩⟩

/-- **The layout of help.** The help text of a reachable registry shows the selected scope. Its
flags have one row each, in the order of declaration, and their descriptions stand in one column for
long names and in one for short names, both given by the width of the names in the scope; behind a
long name there are four blanks or more. The row of the positional argument is as wide as its own
name. Subcommands are listed if none of them is selected and there are any, in a column that is wide
enough for them too. -/
theorem help_layout {r : Registry} (hr : r.Reachable) :
    ∃ width args options subcommands,
      r.help = Help.preamble r ++ Help.usage r ++ (args ++ "Options:\n" ++ String.join options ++
        subcommands) ∧
      Help.IsWidth (Help.names r.activeScope) width ∧
      Help.IsArgsSection r.activeScope.positional args ∧
      List.Forall₂ (Help.IsFlagRow width) r.activeScope.flags options ∧
      (r.activeSubcommand ≠ none ∧ subcommands = "" ∨
        r.activeSubcommand = none ∧ Help.IsSubcommandSection width r.subcommands subcommands) := by
  obtain ⟨id, hs⟩ := r.exists_scope_eq_activeScope
  have hnamed : ∀ f ∈ r.activeScope.flags, f.long.isSome = true ∨ f.short.isSome = true :=
    fun f hf => ((hr.inLimits.scope id _ hs).flags f hf).isNamed
  have hrows := Help.forall₂_flagRows hnamed
  have hargs := Help.isArgsSection_positionalSection r.activeScope.positional
  refine ⟨_, _, _, if r.activeSubcommand.isSome then "" else Help.subcommandSection r, ?_,
    Help.isWidth_scopeWidth _, hargs, hrows, ?_⟩
  · unfold help Help.sections activeScope
    rcases r.activeSubcommand with _ | sub
    · rfl
    · simp [Help.scopeSections]
  · rcases hactive : r.activeSubcommand with _ | sub
    · right
      have hscope : r.activeScope = r.global := by
        unfold activeScope
        rw [hactive]
        rfl
      rw [hscope]
      exact ⟨rfl, Help.isSubcommandSection_subcommandSection r⟩
    · exact .inl ⟨by simp, rfl⟩

/-- The sample with a positional argument that is longer than all flags, and a flag without a long
name. -/
def sampleOfHelp : Registry :=
  sample.performAll [
    .declarePositional "FICHIERS" "entrée" none,
    .declareFlag "" (some 'é') .bool false "court" none]

theorem help_layout_sample :
    ∃ args options subcommands,
      sampleOfHelp.help = Help.preamble sampleOfHelp ++ Help.usage sampleOfHelp ++
        (args ++ "Options:\n" ++ String.join options ++ subcommands) ∧
      Help.IsArgsSection sampleOfHelp.global.positional args ∧
      List.Forall₂ (Help.IsFlagRow 8) sampleOfHelp.global.flags options ∧
      Help.IsSubcommandSection 8 sampleOfHelp.subcommands subcommands := by
  have hwidth : Help.IsWidth (Help.names sampleOfHelp.global) 8 :=
    ⟨by decide +kernel, .inr (by decide +kernel)⟩
  obtain ⟨width, args, options, subcommands, htext, hwidth', hargs, hrows, ⟨hactive, _⟩ |
    ⟨_, hsubcommands⟩⟩ := help_layout (reachable_sample.performAll _ : sampleOfHelp.Reachable)
  · exact absurd (by decide +kernel) hactive
  · obtain rfl := hwidth'.unique hwidth
    exact ⟨args, options, subcommands, htext, hargs, hrows, hsubcommands⟩

end CommandLine.Registry

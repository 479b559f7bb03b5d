import CommandLine.Proofs.Selection

/-!
# Items in another order

Items that do not speak of the same thing commute. The effect of items on a scope is, flag by flag,
what they give to the flag, and their positional values (`Scope.afterAll_congr`), and whether there
is room for them depends on the positional values alone. So a line whose items stand in another
order, the positional ones among themselves and those of each flag as before, gives the same result,
and the same registry if it is read to its end (`feed_line_of_rearranged`).
-/

namespace CommandLine

/-- Items in another order. The positional ones stand in the same order among themselves, and so do
the items of each flag. -/
structure Item.Rearranged (items items' : List Item) : Prop where
  perm : items'.Perm items
  positional_eq : items'.filter (·.positional?.isSome) = items.filter (·.positional?.isSome)
  flag_eq : ∀ index, items'.filter (fun item => (item.values? index).isSome) =
    items.filter fun item => (item.values? index).isSome

/-- Entries without a value do not matter to the list of values. -/
theorem filterMap_filter_isSome {α β : Type} (f : α → Option β) (l : List α) :
    (l.filter fun a => (f a).isSome).filterMap f = l.filterMap f := by
  rw [List.filterMap_filter]
  congr 1
  funext a
  cases f a <;> rfl

namespace Item.Rearranged

variable {items items' : List Item}

theorem positionals_eq (h : Rearranged items items') : positionals items' = positionals items := by
  unfold positionals
  rw [← filterMap_filter_isSome, h.positional_eq, filterMap_filter_isSome]

theorem occurrences_eq (h : Rearranged items items') (index : Nat) :
    occurrences index items' = occurrences index items := by
  unfold occurrences
  rw [← filterMap_filter_isSome, h.flag_eq, filterMap_filter_isSome]

end Item.Rearranged

namespace Scope

variable {s : Scope} {items items' : List Item}

/-- The effect of items is that of their positional values and of what they give to each flag. -/
theorem afterAll_congr (hpositionals : Item.positionals items' = Item.positionals items)
    (hoccurrences : ∀ index, Item.occurrences index items' = Item.occurrences index items) :
    s.afterAll items' = s.afterAll items := by
  have hflags : (s.afterAll items').flags = (s.afterAll items).flags := by
    apply List.ext_getElem?
    intro index
    rw [getElem?_flags_afterAll, getElem?_flags_afterAll, hoccurrences]
  have hpositional : (s.afterAll items').positional = (s.afterAll items).positional := by
    rw [positional_afterAll, positional_afterAll, hpositionals]
  calc s.afterAll items' = ⟨(s.afterAll items').flags, (s.afterAll items').positional⟩ := rfl
    _ = ⟨(s.afterAll items).flags, (s.afterAll items).positional⟩ := by rw [hflags, hpositional]
    _ = s.afterAll items := rfl

/-- Reading a cut in another order gives the same result, and the same scope if there is room. -/
theorem feed_line_rearranged (limit : Nat) (hcut : s.Cut items []) (hcut' : s.Cut items' [])
    (h : Item.Rearranged items items') :
    (s.feed limit (Item.line items')).2 = (s.feed limit (Item.line items)).2 ∧
      ((s.feed limit (Item.line items)).2 = .ok () →
        s.feed limit (Item.line items') = s.feed limit (Item.line items)) := by
  have hroom : s.Room limit items' ↔ s.Room limit items := by
    unfold Room
    rw [h.positionals_eq]
  have hafter : s.afterAll items' = s.afterAll items :=
    afterAll_congr h.positionals_eq h.occurrences_eq
  rw [← List.append_nil (Item.line items'), ← List.append_nil (Item.line items)]
  by_cases hitems : s.Room limit items
  · have heq : s.feed limit (Item.line items' ++ []) = s.feed limit (Item.line items ++ []) := by
      rw [feed_of_cut hcut hitems, feed_of_cut hcut' (hroom.mpr hitems), hafter]
    exact ⟨congrArg Prod.snd heq, fun _ => heq⟩
  · have hfull := feed_of_cut_of_not_room hcut hitems
    have hfull' := feed_of_cut_of_not_room hcut' (mt hroom.mp hitems)
    rw [hfull, hfull']
    exact ⟨rfl, fun hok => by cases hok⟩

end Scope

namespace Registry

/-- **Independent items commute.** Take items that are well formed in a scope, each list at the end
or before a token that looks like a flag to it, and the same items in another order, again with each
list at the end or before such a token, the positional items and the items of each flag in their
order. Reading the second line gives the result of the first, and the same registry if that is a
success. -/
theorem feed_line_of_rearranged {r : Registry} {id : ScopeId} {s : Scope}
    (hscope : r.scope id = .ok s) {items items' : List Item}
    (hfits : ∀ item ∈ items, item.Fits s []) (hstop : s.ListsStop items [])
    (hstop' : s.ListsStop items' []) (h : Item.Rearranged items items') :
    (r.feed id (Item.line items')).2 = (r.feed id (Item.line items)).2 ∧
      ((r.feed id (Item.line items)).2 = .ok () →
        r.feed id (Item.line items') = r.feed id (Item.line items)) := by
  have hcut : s.Cut items [] := Scope.cut_iff.mpr ⟨hfits, hstop⟩
  have hfits' : ∀ item ∈ items', item.Fits s [] := by
    intro item hitem
    exact hfits item (h.perm.mem_iff.mp hitem)
  have hcut' : s.Cut items' [] := Scope.cut_iff.mpr ⟨hfits', hstop'⟩
  obtain ⟨hresult, hsame⟩ := Scope.feed_line_rearranged r.config.maxPositionals hcut hcut' h
  rw [feed_eq hscope, feed_eq hscope]
  refine ⟨hresult, fun hok => ?_⟩
  rw [hsame hok]

theorem feed_line_of_rearranged_sample :
    sample.feed .global (Item.line [.positional "x", .flag 1 "-c" ["1"], .separator,
        .flag 1 "--count" ["2"], .flag 3 "--tags" ["a", "b"]]) =
      sample.feed .global (Item.line [.flag 3 "--tags" ["a", "b"], .flag 1 "-c" ["1"],
        .positional "x", .flag 1 "--count" ["2"], .separator]) := by
  have hcount : sample.global.flags[1]? = some (.scalar "count" (some 'c') (.int .i32) (.zero .i32)
      "") := by decide +kernel
  have htags : sample.global.flags[3]? = some (.list "tags" none .string "") := by decide +kernel
  have hscalar : ∀ token values rest, (Item.flag 1 token values).Stops sample.global rest := by
    intro token values rest f hf hlist
    obtain rfl := Option.some.inj (hcount.symm.trans hf)
    cases hlist
  refine (feed_line_of_rearranged (s := sample.global) rfl ?_ ?_ ?_ ⟨?_, ?_, ?_⟩).2 ?_
  · simp only [List.forall_mem_cons]
    refine ⟨.flag ?_ htags (.list rfl ?_ ?_ ?_), .flag ?_ hcount (.number rfl rfl ?_),
      .positional ?_, .flag ?_ hcount (.number rfl rfl ?_), .separator, by simp⟩
    · exact Scope.resolves_iff.mpr (.inl ⟨"tags", by decide +kernel, by decide +kernel⟩)
    · decide +kernel
    · decide +kernel
    · decide +kernel
    · exact Scope.resolves_iff.mpr (.inr ⟨'c', by decide +kernel, by decide +kernel⟩)
    · decide +kernel
    · decide +kernel
    · exact Scope.resolves_iff.mpr (.inl ⟨"count", by decide +kernel, by decide +kernel⟩)
    · decide +kernel
  · refine ⟨fun f _ _ next hnext => ?_, hscalar _ _ _, trivial, hscalar _ _ _, trivial, trivial⟩
    obtain rfl := Option.some.inj hnext
    cases f.kind.isNumeric <;> rfl
  · refine ⟨trivial, hscalar _ _ _, trivial, hscalar _ _ _, fun f _ _ next hnext => ?_, trivial⟩
    cases hnext
  · decide
  · decide
  · intro index
    by_cases h1 : 1 = index
    · subst h1
      decide
    · by_cases h3 : 3 = index
      · subst h3
        decide
      · simp [Item.values?, h1, h3]
  · decide +kernel

end Registry

end CommandLine

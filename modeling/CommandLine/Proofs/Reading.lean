import CommandLine.Proofs.Item

/-!
# What the reader makes of a line

`Scope.after` is the effect of an item on a scope, and `Scope.Refuses` lists the tokens at which a
scope cannot go on, with the failure each of them gives. A scope whose positional values are not
kept as texts cannot go on at any of them; `Scope.FailsAt` has this case as well.

1. `Scope.fits_or_failsAt`: every token starts an item that fits, or the scope fails at it. The
   first is read (`Scope.step_of_fits`), the second gives its failure (`Scope.step_of_failsAt`).
2. `Scope.feed_of_cut`: a cut at the front of a line is read whole, and the rest of the line in the
   scope that it leaves. `Scope.feed_spec`: every line is a cut that is read, and then ends or goes
   on with a token at which the scope fails.
-/

namespace CommandLine

/-! ## Conversion of a run -/

theorem ValueList.readAll_of_forall {k : Kind} {tokens : List String}
    (h : ∀ v ∈ tokens, (k.read? v).isSome = true) :
    readAll k tokens = .ok (tokens.filterMap k.read?) := by
  induction tokens with
  | nil => rfl
  | cons token tokens ih =>
    obtain ⟨hhead, htail⟩ := List.forall_mem_cons.mp h
    obtain ⟨v, hv⟩ := Option.isSome_iff_exists.mp hhead
    rw [readAll, hv, ih htail, List.filterMap_cons_some hv]
    rfl

/-- A run is refused at its first token that does not convert. -/
theorem ValueList.readAll_append_cons {k : Kind} {before : List String} {u : String}
    (hbefore : ∀ v ∈ before, (k.read? v).isSome = true) (hu : k.read? u = none)
    (after : List String) : readAll k (before ++ u :: after) = .error u := by
  induction before with
  | nil =>
    rw [List.nil_append, readAll, hu]
  | cons token before ih =>
    obtain ⟨hhead, htail⟩ := List.forall_mem_cons.mp hbefore
    obtain ⟨v, hv⟩ := Option.isSome_iff_exists.mp hhead
    rw [List.cons_append, readAll, hv, ih htail]
    rfl

theorem ValueList.append_of_forall {k : Kind} {items : List k.Carrier} {tokens : List String}
    (h : ∀ v ∈ tokens, (k.read? v).isSome = true) :
    append ⟨k, items⟩ tokens = .ok ⟨k, items ++ tokens.filterMap k.read?⟩ := by
  unfold append
  rw [readAll_of_forall h]
  rfl

theorem ValueList.append_of_first {k : Kind} {items : List k.Carrier} {before after : List String}
    {u : String} (hbefore : ∀ v ∈ before, (k.read? v).isSome = true) (hu : k.read? u = none) :
    append ⟨k, items⟩ (before ++ u :: after) = .error u := by
  unfold append
  rw [readAll_append_cons hbefore hu]
  rfl

/-- A run converts as a whole, or has a first token that does not convert. -/
theorem Kind.forall_read_or_exists_first (k : Kind) (tokens : List String) :
    (∀ v ∈ tokens, (k.read? v).isSome = true) ∨
      ∃ before u after, tokens = before ++ u :: after ∧
        (∀ v ∈ before, (k.read? v).isSome = true) ∧ k.read? u = none := by
  induction tokens with
  | nil => exact .inl (by simp)
  | cons token tokens ih =>
    by_cases hhead : (k.read? token).isSome = true
    · rcases ih with hall | ⟨before, u, after, rfl, hbefore, hu⟩
      · exact .inl (List.forall_mem_cons.mpr ⟨hhead, hall⟩)
      · exact .inr ⟨token :: before, u, after, rfl, List.forall_mem_cons.mpr ⟨hhead, hbefore⟩, hu⟩
    · rw [Option.not_isSome_iff_eq_none] at hhead
      exact .inr ⟨[], token, tokens, rfl, by simp, hhead⟩

/-! ## Positional values -/

namespace Positional

/-- The positional argument after a value. -/
def given (p : Positional) (text : String) : Positional :=
  { p with list := ⟨.string, p.values ++ [text]⟩ }

/-- The failure at a value that is not taken: there is no room for it, or the values are not kept as
texts. -/
def refusal (p : Positional) (limit : Nat) : Error :=
  if p.list.kind = .string ∨ limit ≤ p.list.length then .tooManyPositionals limit
  else .internal "main argument list is not a string list"

@[simp] theorem values_given (p : Positional) (text : String) :
    (p.given text).values = p.values ++ [text] := rfl

theorem list_eq_of_kind_eq {p : Positional} (h : p.list.kind = .string) :
    p.list = ⟨.string, p.values⟩ := by
  obtain ⟨name, description, k, items⟩ := p
  obtain rfl : k = .string := h
  rfl

theorem length_values_le (p : Positional) : p.values.length ≤ p.list.length := by
  by_cases h : p.list.kind = .string
  · rw [list_eq_of_kind_eq h]
    exact Nat.le_refl _
  · have hnil : p.values = [] := by
      unfold values ValueList.as?
      rw [dif_neg h]
      rfl
    rw [hnil]
    exact Nat.zero_le _

/-- A value is taken if the values are kept as texts and there is room for it. -/
theorem push_eq (p : Positional) (text : String) (limit : Nat) :
    p.push text limit = if p.list.kind = .string ∧ p.values.length < limit then .ok (p.given text)
      else .error (p.refusal limit) := by
  obtain ⟨name, description, k, items⟩ := p
  unfold push refusal
  by_cases hfull : limit ≤ items.length
  · simp only [ValueList.length, hfull, if_true, or_true]
    rw [if_neg]
    rintro ⟨hkind, hlt⟩
    cases hkind
    exact absurd hfull (Nat.not_le_of_lt hlt)
  · simp only [ValueList.length, hfull, if_false, or_false]
    cases k with
    | string =>
      rw [if_pos ⟨rfl, Nat.lt_of_not_le hfull⟩]
      rfl
    | bool => rfl
    | int t => rfl

theorem refusal_of_full {p : Positional} {limit : Nat} (h : limit ≤ p.values.length) :
    p.refusal limit = .tooManyPositionals limit :=
  if_pos (.inr (h.trans p.length_values_le))

theorem heading_foldl_given (p : Positional) (texts : List String) :
    (texts.foldl given p).name = p.name ∧
      (texts.foldl given p).description = p.description := by
  induction texts generalizing p with
  | nil => exact ⟨rfl, rfl⟩
  | cons text texts ih => exact ih (p.given text)

theorem values_foldl_given (p : Positional) (texts : List String) :
    (texts.foldl given p).values = p.values ++ texts := by
  induction texts generalizing p with
  | nil => exact (List.append_nil _).symm
  | cons text texts ih =>
    rw [List.foldl_cons, ih, values_given, List.append_assoc]
    rfl

/-- Values that are taken are kept as texts, as those before were. -/
theorem kind_foldl_given {p : Positional} (h : p.list.kind = .string) (texts : List String) :
    (texts.foldl given p).list.kind = .string := by
  induction texts generalizing p with
  | nil => exact h
  | cons text texts ih => exact ih rfl

end Positional

/-! ## The effect of an item -/

/-- The value after an occurrence of its flag with some tokens: a switch is set, another single
value is replaced, a list grows. -/
def Value.given : Value → List String → Value
  | .scalar .bool _, _ => .scalar .bool true
  | .scalar k v, tokens => .scalar k ((tokens.head?.bind k.read?).getD v)
  | .list l, tokens => .list ⟨l.kind, l.items ++ tokens.filterMap l.kind.read?⟩

/-- The scope after an item. -/
def Scope.after (s : Scope) : Item → Scope
  | .separator => s
  | .positional text => { s with positional := s.positional.given text }
  | .flag index _ values =>
    { s with flags := s.flags.modify index fun f => { f with value := f.value.given values } }

/-- The scope after items, one by one. -/
def Scope.afterAll (s : Scope) (items : List Item) : Scope := items.foldl Scope.after s

/-- There is room under a limit for the positional values of items, if they have any, and they are
kept as texts. -/
def Scope.Room (limit : Nat) (s : Scope) (items : List Item) : Prop :=
  Item.positionals items = [] ∨ s.positional.list.kind = .string ∧
    s.positional.values.length + (Item.positionals items).length ≤ limit

theorem Value.cleared_given (v : Value) (tokens : List String) :
    (v.given tokens).cleared = v.cleared := by
  cases v with
  | scalar k v => cases k <;> rfl
  | list l => rfl

theorem Scope.getElem?_flags_after_flag (s : Scope) (index : Nat) (token : String)
    (values : List String) (j : Nat) :
    (s.after (.flag index token values)).flags[j]? = s.flags[j]?.map fun f =>
      if index = j then { f with value := f.value.given values } else f := by
  unfold after
  rw [List.getElem?_modify]
  by_cases h : index = j
  · simp only [h, if_true, Option.map_eq_map]
  · simp only [h, if_false, Option.map_eq_map]

theorem Scope.declarations_after (s : Scope) (item : Item) :
    (s.after item).declarations = s.declarations := by
  cases item with
  | separator => rfl
  | positional text => rfl
  | flag index token values =>
    apply map_modify_of_forall
    intro f
    simp only [Flag.cleared, Value.cleared_given]

theorem Scope.declarations_afterAll (s : Scope) (items : List Item) :
    (s.afterAll items).declarations = s.declarations := by
  induction items generalizing s with
  | nil => rfl
  | cons item items ih => exact (ih (s.after item)).trans (s.declarations_after item)

theorem Scope.length_flags_afterAll (s : Scope) (items : List Item) :
    (s.afterAll items).flags.length = s.flags.length := by
  have h := congrArg List.length (s.declarations_afterAll items)
  unfold declarations at h
  rwa [List.length_map, List.length_map] at h

/-- After items, a flag has been given what they give to it, one after the other. -/
theorem Scope.getElem?_flags_afterAll (s : Scope) (items : List Item) (index : Nat) :
    (s.afterAll items).flags[index]? = s.flags[index]?.map fun f =>
      { f with value := (Item.occurrences index items).foldl Value.given f.value } := by
  induction items generalizing s with
  | nil => simp [afterAll, Item.occurrences]
  | cons item items ih =>
    show ((s.after item).afterAll items).flags[index]? = _
    rw [ih]
    cases item with
    | separator => rfl
    | positional text => rfl
    | flag i token values =>
      rw [getElem?_flags_after_flag, Option.map_map]
      congr 1
      funext f
      by_cases h : i = index
      · simp [Item.occurrences, Item.values?, h]
      · simp [Item.occurrences, Item.values?, h]

/-- After items, a scope has been given their positional values, one after the other. -/
theorem Scope.positional_afterAll (s : Scope) (items : List Item) :
    (s.afterAll items).positional =
      (Item.positionals items).foldl Positional.given s.positional := by
  induction items generalizing s with
  | nil => rfl
  | cons item items ih =>
    show ((s.after item).afterAll items).positional = _
    rw [ih]
    cases item with
    | separator => rfl
    | positional text => simp [after]
    | flag index token values => rfl

theorem Scope.values_afterAll (s : Scope) (items : List Item) :
    (s.afterAll items).positional.values = s.positional.values ++ Item.positionals items := by
  rw [positional_afterAll, Positional.values_foldl_given]

theorem Scope.kind_list_afterAll {s : Scope} (h : s.positional.list.kind = .string)
    (items : List Item) : (s.afterAll items).positional.list.kind = .string := by
  rw [positional_afterAll]
  exact Positional.kind_foldl_given h _

theorem Scope.room_positional_iff {limit : Nat} {s : Scope} {text : String} :
    Room limit s [.positional text] ↔
      s.positional.list.kind = .string ∧ s.positional.values.length < limit := by
  unfold Room
  rw [Item.positionals_positional_cons, Item.positionals_nil]
  exact ⟨fun h => h.resolve_left (List.cons_ne_nil _ _), .inr⟩

/-- Room for items is room for the first one, and for the others after it. -/
theorem Scope.room_cons {limit : Nat} {s : Scope} {item : Item} {items : List Item} :
    Room limit s (item :: items) ↔ Room limit s [item] ∧ Room limit (s.after item) items := by
  unfold Room
  cases item with
  | separator => simp [after]
  | flag index token values => simp [after]
  | positional text =>
    have hkind : (s.positional.given text).list.kind = .string := rfl
    simp only [after, Item.positionals_positional_cons, Item.positionals_nil, List.length_cons,
      Positional.values_given, hkind, List.length_append, List.length_nil, List.cons_ne_nil,
      false_or, true_and]
    constructor
    · rintro ⟨htexts, h⟩
      exact ⟨⟨htexts, by omega⟩, .inr (by omega)⟩
    · rintro ⟨⟨htexts, h⟩, h' | h'⟩
      · rw [h', List.length_nil]
        exact ⟨htexts, by omega⟩
      · exact ⟨htexts, by omega⟩

/-! ## What a flag makes of the tokens after it -/

theorem Value.exists_eq_scalar {v : Value} {k : Kind} (hlist : v.isList = false)
    (hkind : v.kind = k) : ∃ x : k.Carrier, v = .scalar k x := by
  cases v with
  | scalar k' x =>
    obtain rfl : k' = k := hkind
    exact ⟨x, rfl⟩
  | list l => cases hlist

theorem Value.exists_eq_list {v : Value} {k : Kind} (hlist : v.isList = true)
    (hkind : v.kind = k) : ∃ items : List k.Carrier, v = .list ⟨k, items⟩ := by
  cases v with
  | scalar k' x => cases hlist
  | list l =>
    obtain rfl : l.kind = k := hkind
    exact ⟨l.items, rfl⟩

/-- The tokens after a flag that leave it without a value, and the failure they give. -/
inductive Flag.Refuses (f : Flag) : List String → Error → Prop
  | missing (hlist : f.isList = false) (hkind : f.kind ≠ .bool) :
      Refuses f [] (.missingValue f.displayName)
  | number {t : IntKind} {u : String} {more : List String} (hlist : f.isList = false)
      (hkind : f.kind = .int t) (hread : Number.read? t u = none) :
      Refuses f (u :: more) (.invalidNumber u)
  | list {rest before after : List String} {u : String} (hlist : f.isList = true)
      (hrun : listRun f.kind.isNumeric rest = before ++ u :: after)
      (hbefore : ∀ v ∈ before, (f.kind.read? v).isSome = true) (hread : f.kind.read? u = none) :
      Refuses f rest (.invalidNumber u)

namespace Flag

theorem consume_of_takes {f : Flag} {values rest : List String} (h : f.Takes values rest) :
    f.consume (values ++ rest) = .ok (f.value.given values, values.length) := by
  unfold consume
  cases h with
  | switch hlist hkind =>
    obtain ⟨b, hb⟩ := Value.exists_eq_scalar hlist hkind
    rw [hb]
    rfl
  | text hlist hkind =>
    obtain ⟨x, hx⟩ := Value.exists_eq_scalar hlist hkind
    rw [hx]
    rfl
  | @number t v rest hlist hkind hread =>
    obtain ⟨x, hx⟩ := Value.exists_eq_scalar hlist hkind
    obtain ⟨n, hn⟩ := Option.isSome_iff_exists.mp hread
    have hread' : Kind.read? (.int t) v = some n := hn
    rw [hx]
    simp only [List.cons_append, Value.given, List.head?_cons, Option.bind_some, hread',
      Option.getD_some, List.length_cons, List.length_nil]
  | list hlist hread hrun hend =>
    obtain ⟨items, hitems⟩ := Value.exists_eq_list (k := f.kind) hlist rfl
    rw [hitems]
    simp only [listRun_append hrun hend, ValueList.append_of_forall hread, Value.given]

theorem consume_of_refuses {f : Flag} {tokens : List String} {e : Error}
    (h : f.Refuses tokens e) : f.consume tokens = .error e := by
  unfold consume
  cases h with
  | missing hlist hkind =>
    cases hk : f.kind with
    | bool => exact absurd hk hkind
    | string =>
      obtain ⟨x, hx⟩ := Value.exists_eq_scalar hlist hk
      rw [hx]
    | int t =>
      obtain ⟨x, hx⟩ := Value.exists_eq_scalar hlist hk
      rw [hx]
  | @number t u more hlist hkind hread =>
    obtain ⟨x, hx⟩ := Value.exists_eq_scalar hlist hkind
    have hread' : Kind.read? (.int t) u = none := hread
    rw [hx]
    simp only [hread']
  | list hlist hrun hbefore hread =>
    obtain ⟨items, hitems⟩ := Value.exists_eq_list (k := f.kind) hlist rfl
    rw [hitems]
    simp only [hrun, ValueList.append_of_first hbefore hread]

/-- A flag takes a value from the tokens after it, or they leave it without one. -/
theorem takes_or_refuses (f : Flag) (tokens : List String) :
    (∃ values rest, tokens = values ++ rest ∧ f.Takes values rest) ∨ ∃ e, f.Refuses tokens e := by
  cases hlist : f.isList with
  | true =>
    obtain ⟨rest, htokens, hend⟩ := exists_listRun_append f.kind.isNumeric tokens
    rcases f.kind.forall_read_or_exists_first (listRun f.kind.isNumeric tokens) with
      hread | ⟨before, u, after, hrun, hbefore, hu⟩
    · exact .inl ⟨_, rest, htokens,
        .list hlist hread (fun v hv => looksLikeFlag_of_mem_listRun hv) hend⟩
    · exact .inr ⟨_, .list hlist hrun hbefore hu⟩
  | false =>
    cases hkind : f.kind with
    | bool => exact .inl ⟨[], tokens, rfl, .switch hlist hkind⟩
    | string =>
      cases tokens with
      | nil => exact .inr ⟨_, .missing hlist (by rw [hkind]; decide)⟩
      | cons v rest => exact .inl ⟨[v], rest, rfl, .text hlist hkind⟩
    | int t =>
      cases tokens with
      | nil => exact .inr ⟨_, .missing hlist (by rw [hkind]; simp)⟩
      | cons v rest =>
        cases hread : Number.read? t v with
        | some n => exact .inl ⟨[v], rest, rfl, .number hlist hkind (by rw [hread]; rfl)⟩
        | none => exact .inr ⟨_, .number hlist hkind hread⟩

end Flag

/-! ## One step -/

/-- The tokens at which a scope cannot go on, with those after them, and the failure they give: a
lone dash, a name that no flag has, one dash before several characters, a positional value too
many, and a flag that is left without a value. -/
inductive Scope.Refuses (limit : Nat) (s : Scope) : String → List String → Error → Prop
  | dash {rest : List String} : Refuses limit s "-" rest (.unknownFlag "-")
  | long {name : String} {rest : List String} (hname : name ≠ "")
      (hnone : ∀ f ∈ s.flags, f.long ≠ some name) :
      Refuses limit s ("--" ++ name) rest (.unknownFlag ("--" ++ name))
  | short {c : Char} {rest : List String} (hc : c ≠ '-')
      (hnone : ∀ f ∈ s.flags, f.short ≠ some c) :
      Refuses limit s (String.ofList ['-', c]) rest (.unknownFlag (String.ofList ['-', c]))
  | cluster {token : String} {rest : List String} {c d : Char} {more : List Char}
      (htoken : token.toList = '-' :: c :: d :: more) (hc : c ≠ '-') :
      Refuses limit s token rest (.cluster token)
  | full {token : String} {rest : List String} (htoken : startsWithDash token = false)
      (hfull : limit ≤ s.positional.values.length) :
      Refuses limit s token rest (.tooManyPositionals limit)
  | value {token : String} {rest : List String} {index : Nat} {f : Flag} {e : Error}
      (hname : s.Resolves token index) (hflag : s.flags[index]? = some f)
      (hvalue : f.Refuses rest e) : Refuses limit s token rest e

/-- The tokens at which a scope fails: those that it refuses, and every positional value if these
are not kept as texts. -/
inductive Scope.FailsAt (limit : Nat) (s : Scope) : String → List String → Error → Prop
  | refused {token : String} {rest : List String} {e : Error} (h : s.Refuses limit token rest e) :
      FailsAt limit s token rest e
  | notTexts {token : String} {rest : List String} (htoken : startsWithDash token = false)
      (hkind : s.positional.list.kind ≠ .string) :
      FailsAt limit s token rest (s.positional.refusal limit)

namespace Scope

theorem FailsAt.refuses {limit : Nat} {s : Scope} {token : String} {rest : List String} {e : Error}
    (h : s.FailsAt limit token rest e) (htexts : s.positional.list.kind = .string) :
    s.Refuses limit token rest e := by
  cases h with
  | refused h => exact h
  | notTexts htoken hkind => exact absurd htexts hkind

theorem setValue_given {s : Scope} {index : Nat} {f : Flag} (hf : s.flags[index]? = some f)
    (token : String) (values : List String) :
    s.setValue index (f.value.given values) = s.after (.flag index token values) := by
  have hflags : s.flags.modify index ({ · with value := f.value.given values }) =
      (s.after (.flag index token values)).flags := by
    apply List.ext_getElem?
    intro j
    rw [getElem?_flags_after_flag, List.getElem?_modify]
    by_cases h : index = j
    · subst h
      rw [hf]
      simp
    · simp [h]
  unfold setValue
  rw [hflags]
  rfl

/-- The step at a token that names a flag is what the flag makes of the tokens after it. -/
theorem step_of_resolves {limit : Nat} {s : Scope} {token : String} {rest : List String}
    {index : Nat} {f : Flag} (hname : s.Resolves token index) (hf : s.flags[index]? = some f) :
    s.step limit token rest =
      (f.consume rest).map fun (v, used) => (s.setValue index v, used) := by
  unfold step
  rcases resolves_iff.mp hname with ⟨name, hshape, hfind⟩ | ⟨c, hshape, hfind⟩
  · simp only [hshape, hfind, consumeAt, hf]
  · simp only [hshape, hfind, consumeAt, hf]

/-- The step at a positional value takes it, if it is kept as a text and there is room. -/
theorem step_of_positional {limit : Nat} {s : Scope} {token : String} (rest : List String)
    (htoken : startsWithDash token = false) :
    s.step limit token rest =
      if s.positional.list.kind = .string ∧ s.positional.values.length < limit then
        .ok (s.after (.positional token), 0)
      else .error (s.positional.refusal limit) := by
  unfold step addPositional
  rw [Token.classify_positional htoken]
  simp only [Positional.push_eq]
  split
  · rfl
  · rfl

/-- An item that fits is read. -/
theorem step_of_fits {limit : Nat} {s : Scope} {item : Item} {rest : List String}
    {token : String} {more : List String} (h : item.Fits s rest) (hroom : s.Room limit [item])
    (htokens : item.tokens = token :: more) :
    s.step limit token (more ++ rest) = .ok (s.after item, more.length) := by
  cases h with
  | separator =>
    obtain ⟨rfl, rfl⟩ := List.cons.inj htokens
    rfl
  | positional htext =>
    obtain ⟨rfl, rfl⟩ := List.cons.inj htokens
    rw [step_of_positional _ htext, if_pos (room_positional_iff.mp hroom)]
    rfl
  | flag hname hflag hvalues =>
    obtain ⟨rfl, rfl⟩ := List.cons.inj htokens
    rw [step_of_resolves hname hflag, Flag.consume_of_takes hvalues]
    show Except.ok (s.setValue _ _, _) = _
    rw [setValue_given hflag]

/-- A token that is refused gives its failure. -/
theorem step_of_refuses {limit : Nat} {s : Scope} {token : String} {rest : List String}
    {e : Error} (h : s.Refuses limit token rest e) : s.step limit token rest = .error e := by
  cases h with
  | dash => rfl
  | @long name _ hname hnone =>
    have hshape : Token.classify ("--" ++ name) = .long name :=
      Token.classify_eq_iff.mpr ⟨hname, rfl⟩
    have hfind : s.findLong name = none := by
      apply List.findIdx?_eq_none_iff.mpr
      intro f hf
      simpa using hnone f hf
    unfold step
    simp only [hshape, hfind]
  | @short c _ hc hnone =>
    have hshape : Token.classify (String.ofList ['-', c]) = .short c :=
      Token.classify_eq_iff.mpr ⟨hc, rfl⟩
    have hfind : s.findShort c = none := by
      apply List.findIdx?_eq_none_iff.mpr
      intro f hf
      simpa using hnone f hf
    unfold step
    simp only [hshape, hfind]
  | cluster htoken hc =>
    have hshape : Token.classify token = .cluster token :=
      Token.classify_eq_iff.mpr ⟨⟨_, _, _, htoken, hc⟩, rfl⟩
    unfold step
    simp only [hshape]
  | full htoken hfull =>
    rw [step_of_positional rest htoken, if_neg fun h => absurd hfull (Nat.not_le_of_lt h.2),
      Positional.refusal_of_full hfull]
  | value hname hflag hvalue =>
    rw [step_of_resolves hname hflag, Flag.consume_of_refuses hvalue]
    rfl

/-- A token at which a scope fails gives its failure. -/
theorem step_of_failsAt {limit : Nat} {s : Scope} {token : String} {rest : List String}
    {e : Error} (h : s.FailsAt limit token rest e) : s.step limit token rest = .error e := by
  cases h with
  | refused h => exact step_of_refuses h
  | notTexts htoken hkind =>
    rw [step_of_positional rest htoken, if_neg fun h => hkind h.1]

theorem fits_or_failsAt_of_resolves {s : Scope} {token : String} {index : Nat} (limit : Nat)
    (rest : List String) (hname : s.Resolves token index) :
    (∃ item more rest', item.tokens = token :: more ∧ rest = more ++ rest' ∧ item.Fits s rest' ∧
        s.Room limit [item]) ∨ ∃ e, s.FailsAt limit token rest e := by
  obtain ⟨f, hf⟩ := hname.exists_flag
  rcases f.takes_or_refuses rest with ⟨values, rest', hrest, hvalues⟩ | ⟨e, hvalue⟩
  · exact .inl ⟨.flag index token values, values, rest', rfl, hrest, .flag hname hf hvalues,
      .inl rfl⟩
  · exact .inr ⟨e, .refused (.value hname hf hvalue)⟩

/-- A token starts an item that fits, or the scope fails at it. -/
theorem fits_or_failsAt (limit : Nat) (s : Scope) (token : String) (rest : List String) :
    (∃ item more rest', item.tokens = token :: more ∧ rest = more ++ rest' ∧ item.Fits s rest' ∧
        s.Room limit [item]) ∨ ∃ e, s.FailsAt limit token rest e := by
  cases hshape : Token.classify token with
  | separator =>
    obtain ⟨_, rfl⟩ := Token.classify_eq_iff.mp hshape
    exact .inl ⟨.separator, [], rest, rfl, rfl, .separator, .inl rfl⟩
  | positional text =>
    obtain ⟨htext, rfl⟩ := Token.classify_eq_iff.mp hshape
    by_cases hkind : s.positional.list.kind = .string
    · by_cases hfull : limit ≤ s.positional.values.length
      · exact .inr ⟨_, .refused (.full htext hfull)⟩
      · exact .inl ⟨.positional text, [], rest, rfl, rfl, .positional htext,
          room_positional_iff.mpr ⟨hkind, Nat.lt_of_not_le hfull⟩⟩
    · exact .inr ⟨_, .notTexts htext hkind⟩
  | long name =>
    cases hfind : s.findLong name with
    | some index =>
      exact fits_or_failsAt_of_resolves limit rest (resolves_iff.mpr (.inl ⟨name, hshape, hfind⟩))
    | none =>
      obtain ⟨hname, rfl⟩ := Token.classify_eq_iff.mp hshape
      refine .inr ⟨_, .refused (.long hname fun f hf => ?_)⟩
      simpa using List.findIdx?_eq_none_iff.mp hfind f hf
  | short c =>
    cases hfind : s.findShort c with
    | some index =>
      exact fits_or_failsAt_of_resolves limit rest (resolves_iff.mpr (.inr ⟨c, hshape, hfind⟩))
    | none =>
      obtain ⟨hc, rfl⟩ := Token.classify_eq_iff.mp hshape
      refine .inr ⟨_, .refused (.short hc fun f hf => ?_)⟩
      simpa using List.findIdx?_eq_none_iff.mp hfind f hf
  | cluster text =>
    obtain ⟨⟨c, d, more, htext, hc⟩, rfl⟩ := Token.classify_eq_iff.mp hshape
    exact .inr ⟨_, .refused (.cluster htext hc)⟩
  | dash =>
    obtain ⟨_, rfl⟩ := Token.classify_eq_iff.mp hshape
    exact .inr ⟨_, .refused .dash⟩

/-! ## The whole line -/

@[simp] theorem feed_nil (limit : Nat) (s : Scope) : s.feed limit [] = (s, .ok ()) := by
  rw [feed]

/-- An item that fits is read, and then the tokens after it. -/
theorem feed_of_fits {limit : Nat} {s : Scope} {item : Item} {rest : List String}
    (h : item.Fits s rest) (hroom : s.Room limit [item]) :
    s.feed limit (item.tokens ++ rest) = (s.after item).feed limit rest := by
  obtain ⟨token, more, htokens⟩ := item.exists_tokens_eq_cons
  rw [htokens, List.cons_append, feed, step_of_fits h hroom htokens]
  simp only [List.drop_left]

/-- A cut at the front of a line is read whole, and then the tokens after it. -/
theorem feed_of_cut {limit : Nat} {s : Scope} {items : List Item} {rest : List String}
    (h : s.Cut items rest) (hroom : s.Room limit items) :
    s.feed limit (Item.line items ++ rest) = (s.afterAll items).feed limit rest := by
  induction items generalizing s with
  | nil => rfl
  | cons item items ih =>
    obtain ⟨hitem, hitems⟩ := room_cons.mp hroom
    rw [Item.line_cons, List.append_assoc, feed_of_fits h.1 hitem,
      ih (h.2.congr (s.declarations_after item)) hitems]
    rfl

/-- An item for which there is room does not change the failure at a positional value. -/
theorem refusal_after {limit : Nat} {s : Scope} {item : Item} (hroom : s.Room limit [item]) :
    (s.after item).positional.refusal limit = s.positional.refusal limit := by
  cases item with
  | separator => rfl
  | flag index token values => rfl
  | positional text =>
    obtain ⟨hkind, _⟩ := room_positional_iff.mp hroom
    exact (if_pos (.inl rfl)).trans (if_pos (.inl hkind)).symm

/-- A cut without room fails at a positional value. -/
theorem feed_of_cut_of_not_room {limit : Nat} {s : Scope} {items : List Item} {rest : List String}
    (h : s.Cut items rest) (hroom : ¬ s.Room limit items) :
    (s.feed limit (Item.line items ++ rest)).2 = .error (s.positional.refusal limit) := by
  induction items generalizing s with
  | nil => exact absurd (.inl rfl) hroom
  | cons item items ih =>
    rw [Item.line_cons, List.append_assoc]
    by_cases hitem : s.Room limit [item]
    · rw [feed_of_fits h.1 hitem, ← refusal_after hitem]
      apply ih (h.2.congr (s.declarations_after item))
      intro hitems
      exact hroom (room_cons.mpr ⟨hitem, hitems⟩)
    · -- only a positional value needs room
      obtain ⟨hfits, _⟩ := h
      cases hfits with
      | separator => exact absurd (.inl rfl) hitem
      | flag hname hflag hvalues => exact absurd (.inl rfl) hitem
      | positional htext =>
        show (s.feed limit (_ :: (Item.line items ++ rest))).2 = _
        rw [feed, step_of_positional _ htext, if_neg (mt room_positional_iff.mpr hitem)]

/-- Every line is a cut that is read, and then ends or goes on with a token at which the scope
fails. -/
theorem feed_spec (limit : Nat) (s : Scope) (tokens : List String) :
    ∃ items rest, tokens = Item.line items ++ rest ∧ s.Cut items rest ∧ s.Room limit items ∧
      ((rest = [] ∧ s.feed limit tokens = (s.afterAll items, .ok ())) ∨
        ∃ token more e, rest = token :: more ∧ (s.afterAll items).FailsAt limit token more e ∧
          s.feed limit tokens = (s.afterAll items, .error e)) := by
  induction hn : tokens.length using Nat.strong_induction_on generalizing s tokens with
  | _ n ih =>
    cases tokens with
    | nil => exact ⟨[], [], rfl, trivial, .inl rfl, .inl ⟨rfl, feed_nil limit s⟩⟩
    | cons token tokens =>
      rcases fits_or_failsAt limit s token tokens with
        ⟨item, more, tokens', htokens, rfl, hfits, hitem⟩ | ⟨e, hfails⟩
      · have hlt : tokens'.length < n := by
          rw [← hn, List.length_cons, List.length_append]
          omega
        have hline : token :: (more ++ tokens') = item.tokens ++ tokens' := by rw [htokens]; rfl
        obtain ⟨items, rest, rfl, hcut, hroom, hend⟩ := ih _ hlt (s.after item) tokens' rfl
        refine ⟨item :: items, rest, ?_, ⟨hfits, hcut.congr (s.declarations_after item).symm⟩,
          room_cons.mpr ⟨hitem, hroom⟩, ?_⟩
        · rw [hline, Item.line_cons, List.append_assoc]
        · rw [hline, feed_of_fits hfits hitem]
          exact hend
      · refine ⟨[], token :: tokens, rfl, trivial, .inl rfl, .inr ⟨token, tokens, e, rfl, ?_, ?_⟩⟩
        · exact hfails
        · rw [feed, step_of_failsAt hfails]
          rfl

/-- Whether it fails or not, reading a line leaves what items leave for which there is room. -/
theorem exists_feed_fst_eq (limit : Nat) (s : Scope) (tokens : List String) :
    ∃ items, s.Room limit items ∧ (s.feed limit tokens).1 = s.afterAll items := by
  obtain ⟨items, _, _, _, hroom, ⟨_, hfeed⟩ | ⟨_, _, _, _, _, hfeed⟩⟩ := s.feed_spec limit tokens
  · exact ⟨items, hroom, congrArg Prod.fst hfeed⟩
  · exact ⟨items, hroom, congrArg Prod.fst hfeed⟩

end Scope

end CommandLine

import CommandLine.Scope
import CommandLine.Proofs.Token

/-!
# Items of a command line

The grammar of a command line in a scope, without reference to the reader. A line is a sequence of
items: separators, positional values, and flags with the tokens of their values.

1. `Scope.Resolves` says which flag a token names.
2. `Flag.Takes` says which tokens a flag takes as its value, before the tokens that follow.
3. `Scope.Cut` says that items stand one after another in a scope. A line has at most one cut
   (`Scope.Cut.unique`), and whether items are a cut depends on the declarations of the scope only
   (`Scope.Cut.congr`).
4. A cut is a sequence of items, each of which fits at the end of a line, in which every list stops
   at what follows it (`Scope.cut_iff`).
-/

namespace CommandLine

/-- An item of a command line. A flag is given by its index in the scope, the token that names it
and the tokens of its value. -/
inductive Item where
  | separator
  | positional (text : String)
  | flag (index : Nat) (token : String) (values : List String)
  deriving DecidableEq

namespace Item

/-- The tokens of an item. -/
def tokens : Item → List String
  | .separator => ["--"]
  | .positional text => [text]
  | .flag _ token values => token :: values

/-- The positional value of an item. -/
def positional? : Item → Option String
  | .positional text => some text
  | _ => none

/-- The tokens of the value that an item gives to the flag at an index. -/
def values? (index : Nat) : Item → Option (List String)
  | .flag i _ values => if i = index then some values else none
  | _ => none

/-- The line that items make up. -/
def line (items : List Item) : List String := items.flatMap tokens

/-- The positional values among items, in order. -/
def positionals (items : List Item) : List String := items.filterMap positional?

/-- What items give to the flag at an index, each time that they name it. -/
def occurrences (index : Nat) (items : List Item) : List (List String) :=
  items.filterMap (values? index)

@[simp] theorem line_nil : line [] = [] := rfl

@[simp] theorem line_cons (item : Item) (items : List Item) :
    line (item :: items) = item.tokens ++ line items := List.flatMap_cons

@[simp] theorem positionals_nil : positionals [] = [] := rfl

@[simp] theorem positionals_separator_cons (items : List Item) :
    positionals (.separator :: items) = positionals items := rfl

@[simp] theorem positionals_positional_cons (text : String) (items : List Item) :
    positionals (.positional text :: items) = text :: positionals items := rfl

@[simp] theorem positionals_flag_cons (index : Nat) (token : String) (values : List String)
    (items : List Item) : positionals (.flag index token values :: items) = positionals items := rfl

theorem mem_occurrences {index : Nat} {values : List String} {items : List Item} :
    values ∈ occurrences index items ↔ ∃ token, .flag index token values ∈ items := by
  unfold occurrences
  rw [List.mem_filterMap]
  constructor
  · rintro ⟨item, hitem, hvalues⟩
    cases item with
    | separator => cases hvalues
    | positional text => cases hvalues
    | flag i token values' =>
      obtain ⟨rfl, hsome⟩ := Option.ite_none_right_eq_some.mp hvalues
      obtain rfl := Option.some.inj hsome
      exact ⟨token, hitem⟩
  · rintro ⟨token, hitem⟩
    exact ⟨_, hitem, if_pos rfl⟩

theorem exists_tokens_eq_cons (item : Item) : ∃ token more, item.tokens = token :: more := by
  cases item with
  | separator => exact ⟨_, _, rfl⟩
  | positional text => exact ⟨_, _, rfl⟩
  | flag index token values => exact ⟨_, _, rfl⟩

end Item

/-! ## The flag that a token names -/

namespace Scope

/-- The flag at an index is the first one of a scope with a property. -/
def IsFirst (s : Scope) (p : Flag → Prop) (index : Nat) : Prop :=
  (∃ f, s.flags[index]? = some f ∧ p f) ∧ ∀ j < index, ∀ g, s.flags[j]? = some g → ¬ p g

/-- A token names the flag at an index by `--` and its long name, or by `-` and its short name;
a name belongs to the first flag that has it. The separator `--` names no flag. -/
inductive Resolves (s : Scope) : String → Nat → Prop
  | long {name : String} {index : Nat} (hname : name ≠ "")
      (hfirst : s.IsFirst (·.long = some name) index) : Resolves s ("--" ++ name) index
  | short {c : Char} {index : Nat} (hc : c ≠ '-')
      (hfirst : s.IsFirst (·.short = some c) index) : Resolves s (String.ofList ['-', c]) index

theorem findIdx?_eq_some_iff_isFirst {s : Scope} {p : Flag → Bool} {index : Nat} :
    s.flags.findIdx? p = some index ↔ s.IsFirst (p · = true) index := by
  rw [List.findIdx?_eq_some_iff_getElem]
  constructor
  · rintro ⟨hlt, hp, hbefore⟩
    refine ⟨⟨_, List.getElem?_eq_getElem hlt, hp⟩, fun j hj g hg => ?_⟩
    obtain ⟨_, rfl⟩ := List.getElem?_eq_some_iff.mp hg
    exact hbefore j hj
  · rintro ⟨⟨f, hf, hp⟩, hbefore⟩
    obtain ⟨hlt, rfl⟩ := List.getElem?_eq_some_iff.mp hf
    exact ⟨hlt, hp, fun j hj => hbefore j hj _ (List.getElem?_eq_getElem (by omega))⟩

theorem findLong_eq_some_iff {s : Scope} {name : String} {index : Nat} :
    s.findLong name = some index ↔ s.IsFirst (·.long = some name) index := by
  unfold findLong
  rw [findIdx?_eq_some_iff_isFirst]
  simp only [beq_iff_eq]

theorem findShort_eq_some_iff {s : Scope} {c : Char} {index : Nat} :
    s.findShort c = some index ↔ s.IsFirst (·.short = some c) index := by
  unfold findShort
  rw [findIdx?_eq_some_iff_isFirst]
  simp only [beq_iff_eq]

/-- Resolution in terms of the shape of the token. -/
theorem resolves_iff {s : Scope} {token : String} {index : Nat} :
    s.Resolves token index ↔
      (∃ name, Token.classify token = .long name ∧ s.findLong name = some index) ∨
        ∃ c, Token.classify token = .short c ∧ s.findShort c = some index := by
  simp only [Token.classify_eq_iff, findLong_eq_some_iff, findShort_eq_some_iff]
  constructor
  · rintro (⟨hname, hfirst⟩ | ⟨hc, hfirst⟩)
    · exact .inl ⟨_, ⟨hname, rfl⟩, hfirst⟩
    · exact .inr ⟨_, ⟨hc, rfl⟩, hfirst⟩
  · rintro (⟨name, ⟨hname, rfl⟩, hfirst⟩ | ⟨c, ⟨hc, rfl⟩, hfirst⟩)
    · exact .long hname hfirst
    · exact .short hc hfirst

/-- A token names at most one flag. -/
theorem Resolves.unique {s : Scope} {token : String} {i j : Nat} (hi : s.Resolves token i)
    (hj : s.Resolves token j) : i = j := by
  rcases resolves_iff.mp hi with ⟨name, hshape, hfind⟩ | ⟨c, hshape, hfind⟩ <;>
    rcases resolves_iff.mp hj with ⟨name', hshape', hfind'⟩ | ⟨c', hshape', hfind'⟩
  · cases hshape.symm.trans hshape'
    exact Option.some.inj (hfind.symm.trans hfind')
  · cases hshape.symm.trans hshape'
  · cases hshape.symm.trans hshape'
  · cases hshape.symm.trans hshape'
    exact Option.some.inj (hfind.symm.trans hfind')

/-- A token that names a flag starts with a dash. -/
theorem Resolves.startsWithDash {s : Scope} {token : String} {index : Nat}
    (h : s.Resolves token index) : startsWithDash token = true := by
  by_contra hdash
  rw [Bool.not_eq_true] at hdash
  have hshape := Token.classify_positional hdash
  rcases resolves_iff.mp h with ⟨name, hname, _⟩ | ⟨c, hc, _⟩
  · cases hshape.symm.trans hname
  · cases hshape.symm.trans hc

theorem Resolves.ne_separator {s : Scope} {token : String} {index : Nat}
    (h : s.Resolves token index) : token ≠ "--" := by
  rintro rfl
  have hshape : Token.classify "--" = .separator := rfl
  rcases resolves_iff.mp h with ⟨name, hname, _⟩ | ⟨c, hc, _⟩
  · cases hshape.symm.trans hname
  · cases hshape.symm.trans hc

theorem Resolves.exists_flag {s : Scope} {token : String} {index : Nat}
    (h : s.Resolves token index) : ∃ f, s.flags[index]? = some f := by
  cases h with
  | long _ hfirst => exact ⟨_, hfirst.1.choose_spec.1⟩
  | short _ hfirst => exact ⟨_, hfirst.1.choose_spec.1⟩

end Scope

/-! ## The tokens that a flag takes -/

/-- The tokens that a flag takes as its value, before the tokens that follow them. A list takes
tokens that do not look like flags, and ends where the next token does or the line ends. -/
inductive Flag.Takes (f : Flag) : List String → List String → Prop
  | switch {rest : List String} (hlist : f.isList = false) (hkind : f.kind = .bool) :
      Takes f [] rest
  | text {v : String} {rest : List String} (hlist : f.isList = false)
      (hkind : f.kind = .string) : Takes f [v] rest
  | number {t : IntKind} {v : String} {rest : List String} (hlist : f.isList = false)
      (hkind : f.kind = .int t) (hread : (Number.read? t v).isSome = true) : Takes f [v] rest
  | list {values rest : List String} (hlist : f.isList = true)
      (hread : ∀ v ∈ values, (f.kind.read? v).isSome = true)
      (hrun : ∀ v ∈ values, looksLikeFlag f.kind.isNumeric v = false)
      (hend : ∀ token ∈ rest.head?, looksLikeFlag f.kind.isNumeric token = true) :
      Takes f values rest

namespace Flag

/-- How many tokens a flag takes is fixed by the tokens after it. -/
theorem Takes.unique {f : Flag} {values values' rest rest' : List String}
    (h : f.Takes values rest) (h' : f.Takes values' rest')
    (heq : values ++ rest = values' ++ rest') : values = values' := by
  cases h with
  | switch hlist hkind => cases h' <;> simp_all
  | text hlist hkind => cases h' <;> simp_all
  | number hlist hkind hread => cases h' <;> simp_all
  | list hlist hread hrun hend =>
    cases h' with
    | switch hlist' hkind' => simp_all
    | text hlist' hkind' => simp_all
    | number hlist' hkind' hread' => simp_all
    | list hlist' hread' hrun' hend' =>
      -- both are the run of the same tokens
      rw [← listRun_append hrun hend, heq, listRun_append hrun' hend']

/-- The tokens of a flag's value depend on what follows only through its first token. -/
theorem Takes.of_head? {f : Flag} {values rest rest' : List String} (h : f.Takes values rest)
    (hend : ∀ token ∈ rest'.head?, token ∈ rest.head? ∨ token = "--") :
    f.Takes values rest' := by
  cases h with
  | switch hlist hkind => exact .switch hlist hkind
  | text hlist hkind => exact .text hlist hkind
  | number hlist hkind hread => exact .number hlist hkind hread
  | list hlist hread hrun hstop =>
    refine .list hlist hread hrun fun token htoken => ?_
    rcases hend token htoken with h | rfl
    · exact hstop token h
    · exact looksLikeFlag_separator _

end Flag

/-! ## Cuts -/

/-- An item may stand in a scope before the tokens that follow it. -/
inductive Item.Fits (s : Scope) (rest : List String) : Item → Prop
  | separator : Fits s rest .separator
  | positional {text : String} (htext : startsWithDash text = false) :
      Fits s rest (.positional text)
  | flag {index : Nat} {token : String} {values : List String} {f : Flag}
      (hname : s.Resolves token index) (hflag : s.flags[index]? = some f)
      (hvalues : f.Takes values rest) : Fits s rest (.flag index token values)

/-- Items may stand one after another in a scope, before the tokens that follow them. -/
def Scope.Cut (s : Scope) : List Item → List String → Prop
  | [], _ => True
  | item :: items, rest => item.Fits s (Item.line items ++ rest) ∧ s.Cut items rest

namespace Item

theorem Fits.of_head? {s : Scope} {item : Item} {rest rest' : List String}
    (h : item.Fits s rest)
    (hend : ∀ token ∈ rest'.head?, token ∈ rest.head? ∨ token = "--") : item.Fits s rest' := by
  cases h with
  | separator => exact .separator
  | positional htext => exact .positional htext
  | flag hname hflag hvalues => exact .flag hname hflag (hvalues.of_head? hend)

/-- An item is fixed by the tokens it starts. -/
theorem Fits.unique {s : Scope} {a b : Item} {rest rest' : List String} (ha : a.Fits s rest)
    (hb : b.Fits s rest') (heq : a.tokens ++ rest = b.tokens ++ rest') : a = b := by
  cases ha with
  | separator =>
    cases hb with
    | separator => rfl
    | positional htext =>
      obtain ⟨rfl, _⟩ := List.cons.inj heq
      exact absurd htext (by decide)
    | flag hname hflag hvalues =>
      obtain ⟨rfl, _⟩ := List.cons.inj heq
      exact absurd rfl hname.ne_separator
  | positional htext =>
    cases hb with
    | separator =>
      obtain ⟨rfl, _⟩ := List.cons.inj heq
      exact absurd htext (by decide)
    | positional htext' => rw [(List.cons.inj heq).1]
    | flag hname hflag hvalues =>
      obtain ⟨rfl, _⟩ := List.cons.inj heq
      exact absurd hname.startsWithDash (by rw [htext]; decide)
  | flag hname hflag hvalues =>
    cases hb with
    | separator =>
      obtain ⟨rfl, _⟩ := List.cons.inj heq
      exact absurd rfl hname.ne_separator
    | positional htext =>
      obtain ⟨rfl, _⟩ := List.cons.inj heq
      exact absurd hname.startsWithDash (by rw [htext]; decide)
    | flag hname' hflag' hvalues' =>
      obtain ⟨rfl, htail⟩ := List.cons.inj heq
      obtain rfl := hname.unique hname'
      obtain rfl := Option.some.inj (hflag.symm.trans hflag')
      rw [hvalues.unique hvalues' htail]

end Item

namespace Scope

theorem Cut.fits_of_mem {s : Scope} {item : Item} {items : List Item} {rest : List String}
    (h : s.Cut items rest) (hitem : item ∈ items) : ∃ rest', item.Fits s rest' := by
  induction items with
  | nil => cases hitem
  | cons first items ih =>
    rcases List.mem_cons.mp hitem with rfl | hitem
    · exact ⟨_, h.1⟩
    · exact ih h.2 hitem

/-- What a cut gives to a flag is what the flag takes. -/
theorem Cut.takes_of_mem_occurrences {s : Scope} {items : List Item} {rest : List String}
    {index : Nat} {f : Flag} {values : List String} (h : s.Cut items rest)
    (hflag : s.flags[index]? = some f) (hvalues : values ∈ Item.occurrences index items) :
    ∃ rest', f.Takes values rest' := by
  obtain ⟨token, hitem⟩ := Item.mem_occurrences.mp hvalues
  obtain ⟨rest', hfits⟩ := h.fits_of_mem hitem
  cases hfits with
  | flag hname hflag' htakes =>
    obtain rfl := Option.some.inj (hflag.symm.trans hflag')
    exact ⟨rest', htakes⟩

/-- A line has at most one cut. -/
theorem Cut.unique {s : Scope} : ∀ {items items' : List Item},
    s.Cut items [] → s.Cut items' [] → Item.line items = Item.line items' → items = items' := by
  intro items
  induction items with
  | nil =>
    intro items' _ _ heq
    cases items' with
    | nil => rfl
    | cons item' items' =>
      obtain ⟨token, more, htokens⟩ := item'.exists_tokens_eq_cons
      rw [Item.line_cons, htokens] at heq
      exact absurd heq (by simp)
  | cons item items ih =>
    intro items' hcut hcut' heq
    cases items' with
    | nil =>
      obtain ⟨token, more, htokens⟩ := item.exists_tokens_eq_cons
      rw [Item.line_cons, htokens] at heq
      exact absurd heq (by simp)
    | cons item' items' =>
      rw [Item.line_cons, Item.line_cons] at heq
      have hitem : item = item' := by
        refine hcut.1.unique hcut'.1 ?_
        rw [List.append_nil, List.append_nil]
        exact heq
      subst hitem
      rw [ih hcut.2 hcut'.2 (List.append_cancel_left heq)]

/-- A cut stays one when the tokens after it are exchanged, as long as the next token is the same,
a separator or missing. -/
theorem Cut.of_head? {s : Scope} {items : List Item} {rest rest' : List String}
    (h : s.Cut items rest)
    (hend : ∀ token ∈ rest'.head?, token ∈ rest.head? ∨ token = "--") : s.Cut items rest' := by
  induction items with
  | nil => trivial
  | cons item items ih =>
    refine ⟨h.1.of_head? fun token htoken => ?_, ih h.2⟩
    cases items with
    | nil => exact hend token htoken
    | cons next items =>
      -- the token after the item is the first one of the next item, whatever follows
      obtain ⟨first, more, htokens⟩ := next.exists_tokens_eq_cons
      rw [Item.line_cons, htokens] at htoken ⊢
      exact .inl htoken

end Scope

/-! ## Where lists stop

An item depends on the tokens after it only if it is a list, which has to stop there. -/

/-- An item stops at the tokens after it: it is no list, or there are none, or the first of them
looks like a flag to the list. -/
def Item.Stops (s : Scope) (rest : List String) : Item → Prop
  | .flag index _ _ => ∀ f, s.flags[index]? = some f → f.isList = true →
      ∀ token ∈ rest.head?, looksLikeFlag f.kind.isNumeric token = true
  | .separator | .positional _ => True

/-- Each of the items stops at the tokens after it. -/
def Scope.ListsStop (s : Scope) : List Item → List String → Prop
  | [], _ => True
  | item :: items, rest => item.Stops s (Item.line items ++ rest) ∧ s.ListsStop items rest

theorem Flag.takes_iff {f : Flag} {values rest : List String} :
    f.Takes values rest ↔ f.Takes values [] ∧ (f.isList = true →
      ∀ token ∈ rest.head?, looksLikeFlag f.kind.isNumeric token = true) := by
  constructor
  · intro h
    refine ⟨h.of_head? (fun token htoken => by cases htoken), fun hlist => ?_⟩
    cases h with
    | switch hlist' => exact absurd (hlist.symm.trans hlist') (by decide)
    | text hlist' => exact absurd (hlist.symm.trans hlist') (by decide)
    | number hlist' => exact absurd (hlist.symm.trans hlist') (by decide)
    | list _ _ _ hend => exact hend
  · rintro ⟨h, hend⟩
    cases h with
    | switch hlist hkind => exact .switch hlist hkind
    | text hlist hkind => exact .text hlist hkind
    | number hlist hkind hread => exact .number hlist hkind hread
    | list hlist hread hrun _ => exact .list hlist hread hrun (hend hlist)

/-- An item fits before tokens if it fits at the end of a line and stops at them. -/
theorem Item.fits_iff {s : Scope} {item : Item} {rest : List String} :
    item.Fits s rest ↔ item.Fits s [] ∧ item.Stops s rest := by
  constructor
  · intro h
    cases h with
    | separator => exact ⟨.separator, trivial⟩
    | positional htext => exact ⟨.positional htext, trivial⟩
    | flag hname hflag hvalues =>
      obtain ⟨hvalues, hend⟩ := Flag.takes_iff.mp hvalues
      refine ⟨.flag hname hflag hvalues, fun f hf => ?_⟩
      obtain rfl := Option.some.inj (hflag.symm.trans hf)
      exact hend
  · rintro ⟨h, hstops⟩
    cases h with
    | separator => exact .separator
    | positional htext => exact .positional htext
    | flag hname hflag hvalues =>
      exact .flag hname hflag (Flag.takes_iff.mpr ⟨hvalues, hstops _ hflag⟩)

namespace Scope

theorem cut_iff {s : Scope} {items : List Item} {rest : List String} :
    s.Cut items rest ↔ (∀ item ∈ items, item.Fits s []) ∧ s.ListsStop items rest := by
  induction items with
  | nil => simp [Cut, ListsStop]
  | cons item items ih =>
    rw [Cut, ListsStop, ih, Item.fits_iff, List.forall_mem_cons]
    exact and_and_and_comm

/-- A cut of a whole line is one before more tokens, if its last item stops at them. -/
theorem Cut.append {s : Scope} {items : List Item} {rest : List String} (h : s.Cut items [])
    (hlast : ∀ item ∈ items.getLast?, item.Stops s rest) : s.Cut items rest := by
  induction items with
  | nil => trivial
  | cons item items ih =>
    cases items with
    | nil => exact ⟨Item.fits_iff.mpr ⟨h.1, hlast item rfl⟩, trivial⟩
    | cons next items =>
      -- an item before the last one is followed by the same token as before
      obtain ⟨first, more, htokens⟩ := next.exists_tokens_eq_cons
      refine ⟨h.1.of_head? fun token htoken => .inl ?_, ih h.2 ?_⟩
      · rw [Item.line_cons, htokens] at htoken ⊢
        exact htoken
      · rwa [List.getLast?_cons_cons] at hlast

end Scope

/-! ## Declarations

What a flag is declared as does not change while a line is read: only its value does. -/

/-- The value with its content forgotten; its kind and whether it is a list remain. -/
def Value.cleared : Value → Value
  | .scalar k _ => .scalar k k.zero
  | .list l => .list (.empty l.kind)

/-- The flag with the content of its value forgotten. -/
def Flag.cleared (f : Flag) : Flag := { f with value := f.value.cleared }

/-- The flags of a scope as they are declared, whatever their values. -/
def Scope.declarations (s : Scope) : List Flag := s.flags.map Flag.cleared

/-- A change of one entry that keeps a column keeps the whole column. -/
theorem map_modify_of_forall {α β : Type} {f : α → α} {g : α → β} (h : ∀ a, g (f a) = g a)
    (l : List α) (i : Nat) : (l.modify i f).map g = l.map g := by
  apply List.ext_getElem?
  intro j
  rw [List.getElem?_map, List.getElem?_map, List.getElem?_modify, Option.map_eq_map,
    Option.map_map]
  congr 1
  funext a
  by_cases hij : i = j <;> simp [hij, h]

theorem Flag.kind_cleared (f : Flag) : f.cleared.kind = f.kind := by
  unfold Flag.kind Flag.cleared
  cases f.value <;> rfl

theorem Flag.isList_cleared (f : Flag) : f.cleared.isList = f.isList := by
  unfold Flag.isList Flag.cleared
  cases f.value <;> rfl

section Declarations

variable {f f' : Flag}

theorem Flag.kind_eq_of_cleared_eq (h : f'.cleared = f.cleared) : f'.kind = f.kind := by
  rw [← f'.kind_cleared, h, f.kind_cleared]

theorem Flag.isList_eq_of_cleared_eq (h : f'.cleared = f.cleared) : f'.isList = f.isList := by
  rw [← f'.isList_cleared, h, f.isList_cleared]

theorem Flag.long_eq_of_cleared_eq (h : f'.cleared = f.cleared) : f'.long = f.long :=
  show f'.cleared.long = f.cleared.long by rw [h]

theorem Flag.short_eq_of_cleared_eq (h : f'.cleared = f.cleared) : f'.short = f.short :=
  show f'.cleared.short = f.cleared.short by rw [h]

theorem Flag.default_eq_of_cleared_eq (h : f'.cleared = f.cleared) : f'.default = f.default :=
  show f'.cleared.default = f.cleared.default by rw [h]

theorem Flag.Takes.congr {values rest : List String} (hf : f'.cleared = f.cleared)
    (h : f.Takes values rest) : f'.Takes values rest := by
  have hlist' := Flag.isList_eq_of_cleared_eq hf
  have hkind' := Flag.kind_eq_of_cleared_eq hf
  cases h with
  | switch hlist hkind => exact .switch (hlist'.trans hlist) (hkind'.trans hkind)
  | text hlist hkind => exact .text (hlist'.trans hlist) (hkind'.trans hkind)
  | number hlist hkind hread => exact .number (hlist'.trans hlist) (hkind'.trans hkind) hread
  | list hlist hread hrun hend =>
    rw [← hkind'] at hread hrun hend
    exact .list (hlist'.trans hlist) hread hrun hend

variable {s s' : Scope}

/-- Scopes with the same declarations have the same flags at each index, up to values. -/
theorem Scope.exists_flag_of_declarations_eq (hs : s'.declarations = s.declarations) {index : Nat}
    (hf : s.flags[index]? = some f) :
    ∃ f', s'.flags[index]? = some f' ∧ f'.cleared = f.cleared := by
  have h : s'.declarations[index]? = some f.cleared := by
    rw [hs, Scope.declarations, List.getElem?_map, hf]
    rfl
  rw [Scope.declarations, List.getElem?_map] at h
  exact Option.map_eq_some_iff.mp h

theorem Scope.IsFirst.congr {p : Flag → Prop} {index : Nat}
    (hp : ∀ f f' : Flag, f'.cleared = f.cleared → p f → p f')
    (hs : s'.declarations = s.declarations) (h : s.IsFirst p index) : s'.IsFirst p index := by
  obtain ⟨⟨f, hf, hpf⟩, hbefore⟩ := h
  obtain ⟨f', hf', hclear⟩ := exists_flag_of_declarations_eq hs hf
  refine ⟨⟨f', hf', hp f f' hclear hpf⟩, fun j hj g hg hpg => ?_⟩
  obtain ⟨g', hg', hclear'⟩ := exists_flag_of_declarations_eq hs.symm hg
  exact hbefore j hj g' hg' (hp g g' hclear' hpg)

theorem Scope.Resolves.congr {token : String} {index : Nat}
    (hs : s'.declarations = s.declarations) (h : s.Resolves token index) :
    s'.Resolves token index := by
  cases h with
  | long hname hfirst =>
    refine .long hname (hfirst.congr (fun f f' hf hlong => ?_) hs)
    exact (Flag.long_eq_of_cleared_eq hf).trans hlong
  | short hc hfirst =>
    refine .short hc (hfirst.congr (fun f f' hf hshort => ?_) hs)
    exact (Flag.short_eq_of_cleared_eq hf).trans hshort

theorem Item.Fits.congr {item : Item} {rest : List String}
    (hs : s'.declarations = s.declarations) (h : item.Fits s rest) : item.Fits s' rest := by
  cases h with
  | separator => exact .separator
  | positional htext => exact .positional htext
  | flag hname hflag hvalues =>
    obtain ⟨f', hf', hclear⟩ := Scope.exists_flag_of_declarations_eq hs hflag
    exact .flag (hname.congr hs) hf' (hvalues.congr hclear)

/-- The cuts of a line depend on what is declared only. -/
theorem Scope.Cut.congr {items : List Item} {rest : List String}
    (hs : s'.declarations = s.declarations) (h : s.Cut items rest) : s'.Cut items rest := by
  induction items with
  | nil => trivial
  | cons item items ih => exact ⟨h.1.congr hs, ih h.2⟩

end Declarations

end CommandLine

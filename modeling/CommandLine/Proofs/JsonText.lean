import CommandLine.Json
import CommandLine.Proofs.Rendering

/-!
# JSON texts and the values they stand for

The grammar of JSON texts whose numbers are integers, without reference to a reader or a writer.

1. A text is made of lexemes. `IsCharacter` says how a character may stand inside a string, and
   `IsSpelled` how a lexeme may be written.
2. `lexemes` are the lexemes of a value in their order. A text of the value (`IsText`) spells them
   one after another, with blanks before, between and after them as one likes.
3. Both layouts of a value are texts of it (`isText_compact` and `isText_pretty`): the lexemes are
   the same and only the blanks differ. The layout on one line has no new line in it
   (`newLine_not_mem_compact`).
-/

namespace CommandLine.Json

/-- A property of every value, if lists and objects have it whenever their members do. -/
@[elab_as_elim]
theorem induction {P : Json → Prop} (null : P .null) (bool : ∀ b, P (.bool b))
    (int : ∀ n, P (.int n)) (string : ∀ text, P (.string text))
    (array : ∀ items, (∀ j ∈ items, P j) → P (.array items))
    (object : ∀ fields : List (String × Json), (∀ f ∈ fields, P f.2) → P (.object fields)) :
    ∀ j, P j := by
  refine @Json.rec P (fun items => ∀ j ∈ items, P j) (fun fields => ∀ f ∈ fields, P f.2)
    (fun f => P f.2) null bool int string array object ?_ ?_ ?_ ?_ ?_
  · exact fun j hj => absurd hj List.not_mem_nil
  · exact fun j items hj hitems => List.forall_mem_cons.mpr ⟨hj, hitems⟩
  · exact fun f hf => absurd hf List.not_mem_nil
  · exact fun f fields hf hfields => List.forall_mem_cons.mpr ⟨hf, hfields⟩
  · exact fun _ _ hj => hj

/-! ## Lexemes -/

/-- The marks that hold arrays and objects together. -/
inductive Mark
  | openArray
  | closeArray
  | openObject
  | closeObject
  | comma
  | colon
  deriving DecidableEq

/-- The parts of a text between which blanks may stand. -/
inductive Lexeme
  | mark (m : Mark)
  | null
  | bool (b : Bool)
  | int (n : Int)
  | string (text : String)
  deriving DecidableEq

/-- The lexemes that are written in one way. -/
def words : List (List Char × Lexeme) := [
  (['['], .mark .openArray), ([']'], .mark .closeArray),
  (['\x7b'], .mark .openObject), (['\x7d'], .mark .closeObject),
  ([','], .mark .comma), ([':'], .mark .colon),
  (['n', 'u', 'l', 'l'], .null),
  (['t', 'r', 'u', 'e'], .bool true), (['f', 'a', 'l', 's', 'e'], .bool false)]

/-- The letters that may follow a backslash, and the characters they stand for. -/
def escapes : List (Char × Char) := [
  ('\x22', '\x22'), ('\x5c', '\x5c'), ('/', '/'), ('b', '\x08'), ('f', '\x0c'), ('n', '\n'),
  ('r', '\r'), ('t', '\t')]

/-- Four hexadecimal digits and their value. -/
def IsUnit (digits : List Char) (n : Nat) : Prop := digits.length = 4 ∧ Numeral.Denotes 16 digits n

/-- The ways to write a character inside a string. Only quotes, backslashes and the characters below
U+0020 cannot stand for themselves. A character above U+FFFF is a pair of units if it is escaped by
its code. -/
inductive IsCharacter : List Char → Char → Prop
  | plain {c : Char} (hlow : 0x20 ≤ c.toNat) (hquote : c ≠ '\x22') (hbackslash : c ≠ '\x5c') :
      IsCharacter [c] c
  | escaped {letter c : Char} (h : (letter, c) ∈ escapes) : IsCharacter ['\x5c', letter] c
  | unit {digits : List Char} {c : Char} (h : IsUnit digits c.toNat) :
      IsCharacter ('\x5c' :: 'u' :: digits) c
  | pair {first second : List Char} {high low : Nat} {c : Char} (hfirst : IsUnit first high)
      (hsecond : IsUnit second low) (hhigh : 0xd800 ≤ high ∧ high < 0xdc00)
      (hlow : 0xdc00 ≤ low ∧ low < 0xe000)
      (hc : c.toNat = 0x10000 + (high - 0xd800) * 0x400 + (low - 0xdc00)) :
      IsCharacter ('\x5c' :: 'u' :: first ++ '\x5c' :: 'u' :: second) c

/-- Decimal digits without a leading zero, and their value. -/
structure IsNatural (digits : List Char) (m : Nat) : Prop where
  ne_nil : digits ≠ []
  no_leading_zero : digits.head? = some '0' → digits = ['0']
  denotes : Numeral.Denotes 10 digits m

/-- The ways to write a lexeme. -/
inductive IsSpelled : List Char → Lexeme → Prop
  | word {raw : List Char} {l : Lexeme} (h : (raw, l) ∈ words) : IsSpelled raw l
  | natural {digits : List Char} {m : Nat} (h : IsNatural digits m) : IsSpelled digits (.int m)
  | negative {digits : List Char} {m : Nat} (h : IsNatural digits m) :
      IsSpelled ('-' :: digits) (.int (-m))
  | string {pieces : List (List Char)} {text : String}
      (h : List.Forall₂ IsCharacter pieces text.toList) :
      IsSpelled ('\x22' :: pieces.flatten ++ ['\x22']) (.string text)

/-! ## Texts -/

mutual

/-- The lexemes of a value. -/
def lexemes : Json → List Lexeme
  | .null => [.null]
  | .bool b => [.bool b]
  | .int n => [.int n]
  | .string text => [.string text]
  | .array items =>
    .mark .openArray :: [.mark .comma].intercalate (itemLexemes items) ++ [.mark .closeArray]
  | .object fields =>
    .mark .openObject :: [.mark .comma].intercalate (fieldLexemes fields) ++ [.mark .closeObject]

/-- The lexemes of each item. -/
def itemLexemes : List Json → List (List Lexeme)
  | [] => []
  | j :: items => j.lexemes :: itemLexemes items

/-- The lexemes of each field. -/
def fieldLexemes : List (String × Json) → List (List Lexeme)
  | [] => []
  | (name, j) :: fields => (.string name :: .mark .colon :: j.lexemes) :: fieldLexemes fields

end

/-- The characters that may stand between lexemes. -/
def isSpace (c : Char) : Bool := c = ' ' || c = '\t' || c = '\n' || c = '\r'

/-- Characters spell lexemes one after another, with blanks around them. -/
inductive Spells : List Char → List Lexeme → Prop
  | nil {blanks : List Char} (hblanks : ∀ c ∈ blanks, isSpace c = true) : Spells blanks []
  | cons {blanks raw cs : List Char} {l : Lexeme} {ls : List Lexeme}
      (hblanks : ∀ c ∈ blanks, isSpace c = true) (hraw : IsSpelled raw l) (hcs : Spells cs ls) :
      Spells (blanks ++ (raw ++ cs)) (l :: ls)

/-- A text is a JSON text of a value. -/
def IsText (text : String) (j : Json) : Prop := Spells text.toList j.lexemes

theorem Spells.blanks_append {blanks cs : List Char} {ls : List Lexeme}
    (hblanks : ∀ c ∈ blanks, isSpace c = true) (h : Spells cs ls) : Spells (blanks ++ cs) ls := by
  cases h with
  | nil hmore => exact .nil (List.forall_mem_append.mpr ⟨hblanks, hmore⟩)
  | cons hmore hraw hcs =>
    rw [← List.append_assoc]
    exact .cons (List.forall_mem_append.mpr ⟨hblanks, hmore⟩) hraw hcs

theorem Spells.append {cs ds : List Char} {ls ms : List Lexeme} (h : Spells cs ls)
    (hds : Spells ds ms) : Spells (cs ++ ds) (ls ++ ms) := by
  induction h with
  | nil hblanks => exact hds.blanks_append hblanks
  | cons hblanks hraw _ ih =>
    rw [List.append_assoc, List.append_assoc]
    exact .cons hblanks hraw ih

theorem IsSpelled.spells {raw : List Char} {l : Lexeme} (h : IsSpelled raw l) :
    Spells raw [l] := by
  have hspells : Spells ([] ++ (raw ++ [])) [l] := .cons (by simp) h (.nil (by simp))
  rwa [List.nil_append, List.append_nil] at hspells

theorem itemLexemes_eq (items : List Json) : itemLexemes items = items.map lexemes := by
  induction items with
  | nil => rfl
  | cons j items ih => rw [itemLexemes, ih, List.map_cons]

/-- The lexemes of a field. -/
def member (f : String × Json) : List Lexeme := .string f.1 :: .mark .colon :: f.2.lexemes

theorem fieldLexemes_eq (fields : List (String × Json)) :
    fieldLexemes fields = fields.map member := by
  induction fields with
  | nil => rfl
  | cons f fields ih =>
    obtain ⟨name, j⟩ := f
    rw [fieldLexemes, ih, List.map_cons]
    rfl

/-! ## Commas -/

theorem Spells.intercalate {parts : List (List Char)} {lists : List (List Lexeme)}
    (h : List.Forall₂ Spells parts lists) :
    Spells ([','].intercalate parts) ([.mark .comma].intercalate lists) := by
  induction h with
  | nil => exact .nil (by simp)
  | cons hpart hparts ih =>
    cases hparts with
    | nil =>
      rw [List.intercalate_singleton, List.intercalate_singleton]
      exact hpart
    | cons hnext hparts =>
      have hcomma : IsSpelled [','] (.mark .comma) := .word (by decide)
      rw [List.intercalate_cons_cons, List.intercalate_cons_cons]
      exact (hpart.append hcomma.spells).append ih

/-- The layouts write lists of things one after another with commas between them. -/
theorem eq_intercalate {α : Type} {write : List α → List Char} {one : α → List Char}
    (hnil : write [] = []) (hone : ∀ a, write [a] = one a)
    (hmore : ∀ a b rest, write (a :: b :: rest) = one a ++ ',' :: write (b :: rest))
    (things : List α) : write things = [','].intercalate (things.map one) := by
  induction things with
  | nil => exact hnil
  | cons a things ih =>
    cases things with
    | nil => rw [hone, List.map_singleton, List.intercalate_singleton]
    | cons b things =>
      rw [hmore, ih, List.map_cons (a := a), List.map_cons, List.intercalate_cons_cons,
        List.append_assoc, List.singleton_append]

theorem compactItems_eq (items : List Json) :
    compactItems items = [','].intercalate (items.map compactChars) :=
  eq_intercalate rfl (fun _ => rfl) (fun _ _ _ => rfl) items

theorem compactFields_eq (fields : List (String × Json)) :
    compactFields fields =
      [','].intercalate (fields.map fun f => quote f.1 ++ ':' :: f.2.compactChars) :=
  eq_intercalate rfl (fun _ => rfl) (fun _ _ _ => rfl) fields

theorem prettyItems_eq (level : Nat) (items : List Json) :
    prettyItems level items =
      [','].intercalate (items.map fun j => newLine level ++ j.prettyChars level) :=
  eq_intercalate rfl (fun _ => rfl) (fun _ _ _ => rfl) items

theorem prettyFields_eq (level : Nat) (fields : List (String × Json)) :
    prettyFields level fields = [','].intercalate (fields.map fun f =>
      newLine level ++ (quote f.1 ++ ':' :: ' ' :: f.2.prettyChars level)) := by
  refine eq_intercalate rfl (fun f => ?_) (fun f g rest => ?_) fields
  · rw [← List.append_assoc]
    rfl
  · rw [← List.append_assoc]
    rfl

/-! ## Scalars -/

theorem toLower_digitChar {d : Nat} (h : d < 16) : d.digitChar.toLower = d.digitChar := by
  revert d
  decide

theorem isDigit_hexDigit (n : Nat) : Numeral.IsDigit 16 (hexDigit n) (n % 16) :=
  ⟨Nat.mod_lt n (by omega), toLower_digitChar (Nat.mod_lt n (by omega))⟩

/-- A character is escaped by its code with two leading zeros if it is below U+0020. -/
theorem isUnit_hexDigits {n : Nat} (h : n < 0x20) :
    IsUnit ['0', '0', hexDigit (n / 16), hexDigit n] n := by
  have hzero : Numeral.IsDigit 16 '0' 0 := ⟨by omega, by decide⟩
  refine ⟨rfl, [0, 0, n / 16 % 16, n % 16], ?_, ?_⟩
  · exact .cons hzero (.cons hzero (.cons (isDigit_hexDigit _) (.cons (isDigit_hexDigit _) .nil)))
  · show n = Nat.ofDigits 16 [n % 16, n / 16 % 16, 0, 0]
    simp only [Nat.ofDigits_cons, Nat.ofDigits_nil]
    omega

theorem isCharacter_escape (c : Char) : IsCharacter (escape c) c := by
  fun_cases escape c with
  | case8 c _ _ _ _ _ _ _ hlow => exact .unit (isUnit_hexDigits hlow)
  | case9 c hquote hbackslash _ _ _ _ _ hlow => exact .plain (by omega) hquote hbackslash
  | _ => exact .escaped (by decide)

theorem isSpelled_quote (text : String) : IsSpelled (quote text) (.string text) := by
  unfold quote
  rw [List.flatMap_def]
  refine .string (List.forall₂_map_left_iff.mpr (List.forall₂_same.mpr fun c _ => ?_))
  exact isCharacter_escape c

theorem isNatural_decimalNat (m : Nat) : IsNatural (Numeral.decimalNat m) m := by
  refine ⟨Nat.toDigits_ne_nil, fun hhead => ?_, ?_⟩
  · rw [Numeral.eq_zero_of_head?_toDigits (by omega) (by omega) hhead]
    rfl
  · exact Numeral.denotes_toDigits (by omega)
      (Numeral.map_toLower_toDigits (by omega) (by omega) m)

theorem isSpelled_decimal (n : Int) : IsSpelled (Numeral.decimal n).toList (.int n) := by
  unfold Numeral.decimal
  rw [String.toList_ofList]
  split
  · rename_i hn
    have hspelled := IsSpelled.negative (isNatural_decimalNat n.natAbs)
    rwa [show -(n.natAbs : Int) = n by omega] at hspelled
  · rename_i hn
    have hspelled := IsSpelled.natural (isNatural_decimalNat n.natAbs)
    rwa [show (n.natAbs : Int) = n by omega] at hspelled

theorem isSpelled_boolChars (b : Bool) : IsSpelled (boolChars b) (.bool b) := by
  cases b
  · exact .word (by decide)
  · exact .word (by decide)

/-! ## Both layouts -/

theorem isSpace_of_mem_newLine (level : Nat) : ∀ c ∈ newLine level, isSpace c = true := by
  intro c hc
  rcases List.mem_cons.mp hc with rfl | hc
  · rfl
  · rw [List.eq_of_mem_replicate hc]
    rfl

theorem Spells.newLine_append {cs : List Char} {ls : List Lexeme} (h : Spells cs ls)
    (level : Nat) : Spells (newLine level ++ cs) ls :=
  h.blanks_append (isSpace_of_mem_newLine level)

theorem Spells.append_newLine {cs : List Char} {ls : List Lexeme} (h : Spells cs ls)
    (level : Nat) : Spells (cs ++ newLine level) ls := by
  have hspells := h.append (.nil (isSpace_of_mem_newLine level))
  rwa [List.append_nil] at hspells

/-- Brackets or braces around what spells the members of a list. -/
theorem Spells.enclosed {first last : Char} {l m : Lexeme} (hfirst : IsSpelled [first] l)
    (hlast : IsSpelled [last] m) {cs : List Char} {ls : List Lexeme} (h : Spells cs ls) :
    Spells (first :: cs ++ [last]) (l :: ls ++ [m]) :=
  (hfirst.spells.append h).append hlast.spells

theorem Spells.member {f : String × Json} {cs : List Char} (h : Spells cs f.2.lexemes) :
    Spells (quote f.1 ++ ':' :: cs) (member f) := by
  have hcolon : IsSpelled [':'] (.mark .colon) := .word (by decide)
  exact (isSpelled_quote f.1).spells.append (hcolon.spells.append h)

theorem spells_compactChars (j : Json) : Spells j.compactChars j.lexemes := by
  induction j using Json.induction with
  | null => exact (IsSpelled.word (by decide)).spells
  | bool b => exact (isSpelled_boolChars b).spells
  | int n => exact (isSpelled_decimal n).spells
  | string text => exact (isSpelled_quote text).spells
  | array items ih =>
    rw [compactChars, lexemes, compactItems_eq, itemLexemes_eq]
    refine .enclosed (.word (by decide)) (.word (by decide)) (.intercalate ?_)
    rw [List.forall₂_map_left_iff, List.forall₂_map_right_iff]
    exact List.forall₂_same.mpr ih
  | object fields ih =>
    rw [compactChars, lexemes, compactFields_eq, fieldLexemes_eq]
    refine .enclosed (.word (by decide)) (.word (by decide)) (.intercalate ?_)
    rw [List.forall₂_map_left_iff, List.forall₂_map_right_iff]
    exact List.forall₂_same.mpr fun f hf => (ih f hf).member

theorem spells_prettyChars (level : Nat) (j : Json) : Spells (j.prettyChars level) j.lexemes := by
  induction j using Json.induction generalizing level with
  | null =>
    rw [prettyChars, lexemes]
    exact (IsSpelled.word (by decide)).spells
  | bool b =>
    rw [prettyChars, lexemes]
    exact (isSpelled_boolChars b).spells
  | int n =>
    rw [prettyChars, lexemes]
    exact (isSpelled_decimal n).spells
  | string text =>
    rw [prettyChars, lexemes]
    exact (isSpelled_quote text).spells
  | array items ih =>
    have hparts : Spells (prettyItems (level + 1) items)
        ([.mark .comma].intercalate (items.map lexemes)) := by
      rw [prettyItems_eq]
      apply Spells.intercalate
      rw [List.forall₂_map_left_iff, List.forall₂_map_right_iff]
      exact List.forall₂_same.mpr fun j hj => (ih j hj (level + 1)).newLine_append (level + 1)
    rw [lexemes, itemLexemes_eq]
    cases items with
    | nil =>
      show Spells ('[' :: [] ++ [']']) (.mark .openArray :: [] ++ [.mark .closeArray])
      exact .enclosed (.word (by decide)) (.word (by decide)) (.nil (by simp))
    | cons j items =>
      exact .enclosed (.word (by decide)) (.word (by decide)) (hparts.append_newLine level)
  | object fields ih =>
    have hparts : Spells (prettyFields (level + 1) fields)
        ([.mark .comma].intercalate (fields.map member)) := by
      rw [prettyFields_eq]
      apply Spells.intercalate
      rw [List.forall₂_map_left_iff, List.forall₂_map_right_iff]
      refine List.forall₂_same.mpr fun f hf => ?_
      have hspace : ∀ c ∈ [' '], isSpace c = true := List.forall_mem_singleton.mpr rfl
      have hvalue := (ih f hf (level + 1)).blanks_append hspace
      exact hvalue.member.newLine_append (level + 1)
    rw [lexemes, fieldLexemes_eq]
    cases fields with
    | nil =>
      show Spells ('\x7b' :: [] ++ ['\x7d']) (.mark .openObject :: [] ++ [.mark .closeObject])
      exact .enclosed (.word (by decide)) (.word (by decide)) (.nil (by simp))
    | cons f fields =>
      exact .enclosed (.word (by decide)) (.word (by decide)) (hparts.append_newLine level)

theorem isText_compact (j : Json) : IsText j.compact j := by
  unfold IsText compact
  rw [String.toList_ofList]
  exact spells_compactChars j

theorem isText_pretty (j : Json) : IsText j.pretty j := by
  unfold IsText pretty
  rw [String.toList_ofList]
  exact spells_prettyChars 0 j

/-! ## One line -/

theorem newLine_not_mem_escape (c : Char) : '\n' ∉ escape c := by
  fun_cases escape c with
  | case8 c _ _ _ _ _ _ _ hlow =>
    have hdigit : ∀ d < 16, '\n' ≠ d.digitChar := by decide
    have hhigh := hdigit (c.toNat / 16 % 16) (by omega)
    have hlow := hdigit (c.toNat % 16) (by omega)
    unfold hexDigit
    simp [hhigh, hlow]
  | case9 c _ _ _ _ hnewLine _ _ hlow =>
    rw [List.mem_singleton]
    exact fun h => hnewLine h.symm
  | _ => decide

theorem newLine_not_mem_quote (text : String) : '\n' ∉ quote text := by
  unfold quote
  simp [newLine_not_mem_escape]

theorem newLine_not_mem_decimal (n : Int) : '\n' ∉ (Numeral.decimal n).toList := by
  have hdigits : '\n' ∉ Numeral.decimalNat n.natAbs := fun h =>
    absurd (Nat.isDigit_of_mem_toDigits (by omega) (by omega) h) (by decide)
  unfold Numeral.decimal
  rw [String.toList_ofList]
  split
  · simp [hdigits]
  · exact hdigits

theorem not_mem_intercalate {x : Char} (hx : x ≠ ',') {parts : List (List Char)}
    (h : ∀ part ∈ parts, x ∉ part) : x ∉ [','].intercalate parts := by
  induction parts with
  | nil => exact List.not_mem_nil
  | cons part parts ih =>
    obtain ⟨hpart, hparts⟩ := List.forall_mem_cons.mp h
    cases parts with
    | nil => rwa [List.intercalate_singleton]
    | cons next parts =>
      rw [List.intercalate_cons_cons]
      simp [hpart, hx, ih hparts]

theorem newLine_not_mem_compactChars (j : Json) : '\n' ∉ j.compactChars := by
  induction j using Json.induction with
  | null => decide
  | bool b => revert b; decide
  | int n => exact newLine_not_mem_decimal n
  | string text => exact newLine_not_mem_quote text
  | array items ih =>
    have hitems : '\n' ∉ [','].intercalate (items.map compactChars) := by
      apply not_mem_intercalate (by decide)
      simpa using ih
    rw [compactChars, compactItems_eq]
    simp [hitems]
  | object fields ih =>
    have hfields : '\n' ∉
        [','].intercalate (fields.map fun f => quote f.1 ++ ':' :: f.2.compactChars) := by
      apply not_mem_intercalate (by decide)
      intro part hpart
      obtain ⟨f, hf, rfl⟩ := List.mem_map.mp hpart
      simp [newLine_not_mem_quote, ih f hf]
    rw [compactChars, compactFields_eq]
    simp [hfields]

theorem newLine_not_mem_compact (j : Json) : '\n' ∉ j.compact.toList := by
  unfold compact
  rw [String.toList_ofList]
  exact newLine_not_mem_compactChars j

end CommandLine.Json

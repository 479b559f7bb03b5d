import CommandLine.Proofs.JsonText
import Mathlib.Data.List.Chain

/-!
# Cutting JSON texts into lexemes

Readers for the characters and the lexemes of JSON texts, each with what it accepts.

1. `many?` reads things one after another up to a place where one may stop. What it reads stands
   one after another (`exists_flatten_of_many?`), and the other way round (`many?_flatten`).
2. `character?` and `lexeme?` accept what the grammar says. All the digits that follow each other
   are read as one number, so a number is read as it stands only if no digit follows it
   (`lexeme?_append`).
3. Hence `lexemes?` gives lexemes that the text spells (`spells_of_lexemes?`), and all that it
   spells if one of any two neighbours is a mark (`lexemes?_of_spells`).
-/

namespace CommandLine.Json

/-! ## Readers -/

/-- Reads something at the front of a list and gives it with what is left. -/
abbrev Reader (τ α : Type) : Type := List τ → Option (α × List τ)

section Readers

variable {τ α β : Type} {read? : Reader τ α} {ts rest : List τ}

/-- Reads a thing and makes another one of it. -/
def Reader.map (read? : Reader τ α) (f : α → β) : Reader τ β := fun ts =>
  (read? ts).map fun p => (f p.1, p.2)

theorem Reader.map_eq_some_iff {f : α → β} {b : β} :
    read?.map f ts = some (b, rest) ↔ ∃ a, read? ts = some (a, rest) ∧ f a = b := by
  unfold Reader.map
  rw [Option.map_eq_some_iff]
  constructor
  · rintro ⟨p, hp, heq⟩
    obtain ⟨hb, rfl⟩ := Prod.mk.inj heq
    exact ⟨p.1, hp, hb⟩
  · rintro ⟨a, ha, rfl⟩
    exact ⟨(a, rest), ha, rfl⟩

section Words

variable [DecidableEq τ] {word : List τ}

/-- What follows a word at the front. -/
def skip? (word : List τ) : List τ → Option (List τ) := fun ts => ts.dropPrefix? word

theorem skip?_eq_some : skip? word ts = some rest ↔ ts = word ++ rest := by
  unfold skip?
  rw [List.dropPrefix?_eq_some_iff]
  constructor
  · rintro ⟨word', rfl, hword⟩
    rw [eq_of_beq hword]
  · rintro rfl
    exact ⟨word, rfl, BEq.rfl⟩

theorem skip?_of_head?_ne {t : τ} (h : ts.head? ≠ some t) (word : List τ) :
    skip? (t :: word) ts = none := by
  rw [Option.eq_none_iff_forall_ne_some]
  intro rest hrest
  rw [skip?_eq_some.mp hrest] at h
  exact h rfl

/-- Reads a thing behind a word. -/
def Reader.behind (read? : Reader τ α) (word : List τ) : Reader τ α := fun ts =>
  (skip? word ts).bind read?

theorem Reader.behind_eq_some_iff {a : α} :
    read?.behind word ts = some (a, rest) ↔ ∃ us, ts = word ++ us ∧ read? us = some (a, rest) := by
  unfold Reader.behind
  rw [Option.bind_eq_some_iff]
  simp only [skip?_eq_some]

theorem Reader.behind_of_head?_ne {t : τ} (h : ts.head? ≠ some t) (word : List τ) :
    read?.behind (t :: word) ts = none := by
  unfold Reader.behind
  rw [skip?_of_head?_ne h, Option.bind_none]

end Words

section Lists

variable {stop? : List τ → Option (List τ)} {as : List α}

/-- Stops here, or reads one thing and goes on. -/
def Reader.step (stop? : List τ → Option (List τ)) (read? : Reader τ α)
    (more? : Reader τ (List α)) : Reader τ (List α) := fun ts =>
  match stop? ts with
  | some rest => some ([], rest)
  | none => (read? ts).bind fun p => (more?.map (p.1 :: ·)) p.2

theorem Reader.step_eq_some_iff {more? : Reader τ (List α)} :
    Reader.step stop? read? more? ts = some (as, rest) ↔ (stop? ts = some rest ∧ as = []) ∨
      (stop? ts = none ∧ ∃ a bs us, as = a :: bs ∧ read? ts = some (a, us) ∧
        more? us = some (bs, rest)) := by
  unfold Reader.step
  cases hstop : stop? ts with
  | some last =>
    simp only [Option.some.injEq, Prod.mk.injEq, reduceCtorEq, false_and, or_false]
    exact ⟨fun h => ⟨h.2, h.1.symm⟩, fun h => ⟨h.2.symm, h.1⟩⟩
  | none =>
    simp only [reduceCtorEq, false_and, false_or, true_and, Option.bind_eq_some_iff]
    constructor
    · rintro ⟨p, hp, hmap⟩
      obtain ⟨bs, hbs, rfl⟩ := Reader.map_eq_some_iff.mp hmap
      exact ⟨p.1, bs, p.2, rfl, hp, hbs⟩
    · rintro ⟨a, bs, us, rfl, ha, hbs⟩
      exact ⟨(a, us), ha, Reader.map_eq_some_iff.mpr ⟨bs, hbs, rfl⟩⟩

/-- Reads things up to a place where one may stop. The fuel is more than their number. -/
def many? (stop? : List τ → Option (List τ)) (read? : Reader τ α) : Nat → Reader τ (List α)
  | 0 => fun _ => none
  | fuel + 1 => Reader.step stop? read? (many? stop? read? fuel)

/-- What is read one after another stands one after another. -/
theorem exists_flatten_of_many? {R : List τ → α → Prop}
    (hread : ∀ ts a rest, read? ts = some (a, rest) → ∃ raw, R raw a ∧ ts = raw ++ rest)
    {fuel : Nat} (h : many? stop? read? fuel ts = some (as, rest)) :
    ∃ raws last, List.Forall₂ R raws as ∧ stop? last = some rest ∧ ts = raws.flatten ++ last := by
  induction fuel generalizing ts as with
  | zero => cases h
  | succ fuel ih =>
    rcases Reader.step_eq_some_iff.mp h with ⟨hstop, rfl⟩ | ⟨_, a, bs, us, rfl, ha, hbs⟩
    · exact ⟨[], ts, .nil, hstop, rfl⟩
    · obtain ⟨raw, hraw, rfl⟩ := hread _ _ _ ha
      obtain ⟨raws, last, hraws, hlast, rfl⟩ := ih hbs
      refine ⟨raw :: raws, last, .cons hraw hraws, hlast, ?_⟩
      rw [List.flatten_cons, List.append_assoc]

/-- What stands one after another is read, if each part is read whatever follows it. -/
theorem many?_flatten {raws : List (List τ)}
    (h : List.Forall₂ (fun raw a => ∀ rest, stop? (raw ++ rest) = none ∧
      read? (raw ++ rest) = some (a, rest)) raws as)
    {last : List τ} (hlast : stop? last = some rest) {fuel : Nat} (hfuel : as.length < fuel) :
    many? stop? read? fuel (raws.flatten ++ last) = some (as, rest) := by
  induction h generalizing fuel with
  | nil =>
    cases fuel with
    | zero => omega
    | succ fuel => exact Reader.step_eq_some_iff.mpr (.inl ⟨hlast, rfl⟩)
  | cons hraw _ ih =>
    cases fuel with
    | zero => omega
    | succ fuel =>
      rw [List.flatten_cons, List.append_assoc]
      obtain ⟨hstop, hread⟩ := hraw (_ ++ last)
      have hmany := ih (Nat.lt_of_succ_lt_succ hfuel)
      exact Reader.step_eq_some_iff.mpr (.inr ⟨hstop, _, _, _, rfl, hread, hmany⟩)

end Lists

end Readers

/-! ## Characters of a string -/

/-- The value of four hexadecimal digits. -/
def unit? : Reader Char Nat := fun cs =>
  if 4 ≤ cs.length then (Numeral.digits? 16 (cs.take 4)).map fun n => (n, cs.drop 4) else none

/-- The character of a unit, or of the unit and a second one behind it. -/
def coded? (n : Nat) : Reader Char Char := fun cs =>
  if n.isValidChar then some (Char.ofNat n, cs)
  else (unit?.behind ['\x5c', 'u'] cs).bind fun p =>
    if n < 0xdc00 ∧ 0xdc00 ≤ p.1 ∧ p.1 < 0xe000 then
      some (Char.ofNat (0x10000 + (n - 0xd800) * 0x400 + (p.1 - 0xdc00)), p.2)
    else none

/-- The character that an escape stands for, without its backslash. -/
def escaped? : Reader Char Char
  | [] => none
  | letter :: cs =>
    if letter = 'u' then (unit? cs).bind fun p => coded? p.1 p.2
    else (escapes.lookup letter).map fun c => (c, cs)

/-- A character of a string. -/
def character? : Reader Char Char
  | [] => none
  | c :: cs =>
    if c = '\x5c' then escaped? cs
    else if c = '\x22' ∨ c.toNat < 0x20 then none
    else some (c, cs)

theorem unit?_eq_some_iff {cs rest : List Char} {n : Nat} :
    unit? cs = some (n, rest) ↔ ∃ digits, IsUnit digits n ∧ cs = digits ++ rest := by
  unfold unit?
  constructor
  · intro h
    split at h
    · rename_i hlength
      obtain ⟨m, hm, heq⟩ := Option.map_eq_some_iff.mp h
      obtain ⟨rfl, rfl⟩ := Prod.mk.inj heq
      obtain ⟨_, hdenotes⟩ := (Numeral.digits?_eq_some_iff (Nat.le_refl 16)).mp hm
      refine ⟨cs.take 4, ⟨List.length_take_of_le hlength, hdenotes⟩, ?_⟩
      rw [List.take_append_drop]
    · cases h
  · rintro ⟨digits, ⟨hlength, hdenotes⟩, rfl⟩
    have hne : digits ≠ [] := by
      rintro rfl
      cases hlength
    rw [if_pos (by rw [List.length_append]; omega), List.take_left' hlength,
      List.drop_left' hlength,
      (Numeral.digits?_eq_some_iff (Nat.le_refl 16)).mpr ⟨hne, hdenotes⟩]
    rfl

theorem IsUnit.lt {digits : List Char} {n : Nat} (h : IsUnit digits n) : n < 0x10000 := by
  obtain ⟨hlength, ds, hds, rfl⟩ := h
  have hflip : List.Forall₂ (fun d c => d < 16 ∧ c.toLower = d.digitChar) ds digits := hds.flip
  have hdigits : ∀ d ∈ ds.reverse, d < 16 := fun d hd =>
    ((List.forall₂_and_left _ _).mp hflip).1 d (List.mem_reverse.mp hd)
  have hlt := Nat.ofDigits_lt_base_pow_length (by omega) hdigits
  rwa [List.length_reverse, ← hds.length_eq, hlength] at hlt

theorem mem_of_lookup_eq_some {α β : Type} [BEq α] [LawfulBEq α] {key : α} {b : β}
    {entries : List (α × β)} (h : entries.lookup key = some b) : (key, b) ∈ entries := by
  obtain ⟨front, back, rfl, _⟩ := List.lookup_eq_some_iff.mp h
  exact List.mem_append_right _ List.mem_cons_self

theorem lookup_escapes_iff {letter c : Char} :
    escapes.lookup letter = some c ↔ (letter, c) ∈ escapes := by
  have hall : ∀ e ∈ escapes, escapes.lookup e.1 = some e.2 := by decide
  exact ⟨mem_of_lookup_eq_some, hall _⟩

/-- The characters behind `\u`, which are one unit or two. -/
theorem exists_isCharacter_of_coded? {digits cs rest : List Char} {n : Nat} {c : Char}
    (hn : IsUnit digits n) (h : coded? n cs = some (c, rest)) :
    ∃ raw, IsCharacter raw c ∧ '\x5c' :: 'u' :: digits ++ cs = raw ++ rest := by
  have hlt := hn.lt
  unfold coded? at h
  split at h
  · rename_i hvalid
    obtain ⟨rfl, rfl⟩ := Prod.mk.inj (Option.some.inj h)
    refine ⟨'\x5c' :: 'u' :: digits, .unit ?_, rfl⟩
    rw [Char.ofNat, dif_pos hvalid]
    exact hn
  · rename_i hinvalid
    obtain ⟨p, hp, hpair⟩ := Option.bind_eq_some_iff.mp h
    obtain ⟨ds, rfl, hds⟩ := Reader.behind_eq_some_iff.mp hp
    obtain ⟨second, hsecond, rfl⟩ := unit?_eq_some_iff.mp hds
    split at hpair
    · rename_i hrange
      obtain ⟨rfl, rfl⟩ := Prod.mk.inj (Option.some.inj hpair)
      refine ⟨'\x5c' :: 'u' :: digits ++ '\x5c' :: 'u' :: second, ?_, ?_⟩
      · unfold Nat.isValidChar at hinvalid
        refine .pair hn hsecond (by omega) (by omega) ?_
        rw [Char.ofNat, dif_pos (by unfold Nat.isValidChar; omega)]
        rfl
      · simp
    · cases hpair

theorem exists_isCharacter_of_character? {cs rest : List Char} {c : Char}
    (h : character? cs = some (c, rest)) : ∃ raw, IsCharacter raw c ∧ cs = raw ++ rest := by
  fun_cases character? cs with
  | case1 => cases h
  | case2 cs =>
    rw [character?, if_pos rfl] at h
    fun_cases escaped? cs with
    | case1 => cases h
    | case2 cs =>
      rw [escaped?, if_pos rfl] at h
      obtain ⟨p, hp, hcoded⟩ := Option.bind_eq_some_iff.mp h
      obtain ⟨digits, hdigits, rfl⟩ := unit?_eq_some_iff.mp hp
      exact exists_isCharacter_of_coded? hdigits hcoded
    | case3 letter cs hletter =>
      rw [escaped?, if_neg hletter] at h
      obtain ⟨c', hc, heq⟩ := Option.map_eq_some_iff.mp h
      obtain ⟨rfl, rfl⟩ := Prod.mk.inj heq
      exact ⟨['\x5c', letter], .escaped (lookup_escapes_iff.mp hc), rfl⟩
  | case3 c' cs hbackslash hbad =>
    rw [character?, if_neg hbackslash, if_pos hbad] at h
    cases h
  | case4 c' cs hbackslash hgood =>
    rw [character?, if_neg hbackslash, if_neg hgood] at h
    obtain ⟨rfl, rfl⟩ := Prod.mk.inj (Option.some.inj h)
    rw [not_or] at hgood
    exact ⟨[c'], .plain (by omega) hgood.1 hbackslash, rfl⟩

theorem character?_append {raw : List Char} {c : Char} (h : IsCharacter raw c)
    (rest : List Char) : character? (raw ++ rest) = some (c, rest) := by
  cases h with
  | plain hlow hquote hbackslash =>
    rw [List.singleton_append, character?, if_neg hbackslash, if_neg (by simp [hquote]; omega)]
  | @escaped letter c hletter =>
    have hne : ∀ e ∈ escapes, e.1 ≠ 'u' := by decide
    show escaped? (letter :: rest) = some (c, rest)
    rw [escaped?, if_neg (hne _ hletter), lookup_escapes_iff.mpr hletter]
    rfl
  | @unit digits c hdigits =>
    show escaped? ('u' :: (digits ++ rest)) = some (c, rest)
    rw [escaped?, if_pos rfl, unit?_eq_some_iff.mpr ⟨digits, hdigits, rfl⟩]
    show coded? c.toNat rest = some (c, rest)
    rw [coded?, if_pos (show c.toNat.isValidChar from c.valid), Char.ofNat_toNat]
  | @pair first second high low c hfirst hsecond hhigh hlow hc =>
    show escaped? ('u' :: (first ++ '\x5c' :: 'u' :: second ++ rest)) = some (c, rest)
    rw [List.append_assoc, escaped?, if_pos rfl, unit?_eq_some_iff.mpr ⟨first, hfirst, rfl⟩]
    show coded? high ('\x5c' :: 'u' :: (second ++ rest)) = some (c, rest)
    have hinvalid : ¬ high.isValidChar := by
      unfold Nat.isValidChar
      omega
    have hread : unit?.behind ['\x5c', 'u'] ('\x5c' :: 'u' :: (second ++ rest)) =
        some (low, rest) := Reader.behind_eq_some_iff.mpr
      ⟨_, rfl, unit?_eq_some_iff.mpr ⟨second, hsecond, rfl⟩⟩
    rw [coded?, if_neg hinvalid, hread, Option.bind_some, if_pos ⟨hhigh.2, hlow.1, hlow.2⟩, ← hc,
      Char.ofNat_toNat]

example : character? "\\ud83d\\ude00.".toList = some ('😀', ['.']) := by decide +kernel

/-! ## Lexemes -/

/-- The characters of a string up to its closing quote. -/
def characters? : Reader Char (List Char) := fun cs =>
  many? (skip? ['\x22']) character? (cs.length + 1) cs

/-- A natural number: all the digits at the front. -/
def natural? : Reader Char Nat := fun cs =>
  if (cs.takeWhile Char.isDigit).head? = some '0' ∧ cs.takeWhile Char.isDigit ≠ ['0'] then none
  else (Numeral.digits? 10 (cs.takeWhile Char.isDigit)).map fun m => (m, cs.dropWhile Char.isDigit)

/-- A lexeme that is written in one way. -/
def word? : Reader Char Lexeme := fun cs =>
  words.findSome? fun w => (skip? w.1 cs).map fun rest => (w.2, rest)

/-- A lexeme. -/
def lexeme? : Reader Char Lexeme := fun cs =>
  ((characters?.map fun text => .string (String.ofList text)).behind ['\x22'] cs).or
    (((natural?.map fun m => .int (-m)).behind ['-'] cs).or
      ((natural?.map (.int ·) cs).or (word? cs)))

theorem length_le_flatten {τ : Type} {raws : List (List τ)} (h : ∀ raw ∈ raws, raw ≠ []) :
    raws.length ≤ raws.flatten.length := by
  induction raws with
  | nil => exact Nat.le_refl 0
  | cons raw raws ih =>
    obtain ⟨hraw, hraws⟩ := List.forall_mem_cons.mp h
    have hpos := List.length_pos_iff.mpr hraw
    have hle := ih hraws
    rw [List.length_cons, List.flatten_cons, List.length_append]
    omega

/-- No piece of a string starts with the quote that ends it. -/
theorem IsCharacter.exists_cons {raw : List Char} {c : Char} (h : IsCharacter raw c) :
    ∃ first cs, raw = first :: cs ∧ first ≠ '\x22' := by
  cases h with
  | plain _ hquote _ => exact ⟨c, [], rfl, hquote⟩
  | _ => exact ⟨'\x5c', _, rfl, by decide⟩

theorem characters?_eq_some_iff {cs text rest : List Char} :
    characters? cs = some (text, rest) ↔
      ∃ pieces, List.Forall₂ IsCharacter pieces text ∧ cs = pieces.flatten ++ ['\x22'] ++ rest := by
  constructor
  · intro h
    obtain ⟨pieces, last, hpieces, hlast, rfl⟩ :=
      exists_flatten_of_many? (fun _ _ _ => exists_isCharacter_of_character?) h
    refine ⟨pieces, hpieces, ?_⟩
    rw [skip?_eq_some.mp hlast, List.append_assoc]
  · rintro ⟨pieces, h, rfl⟩
    have hpieces : List.Forall₂ (fun raw c => ∀ rest, skip? ['\x22'] (raw ++ rest) = none ∧
        character? (raw ++ rest) = some (c, rest)) pieces text := by
      refine h.imp fun raw c hc rest => ⟨skip?_of_head?_ne ?_ [], character?_append hc rest⟩
      obtain ⟨first, cs, rfl, hfirst⟩ := hc.exists_cons
      exact fun heq => hfirst (Option.some.inj heq)
    have hlength : text.length < (pieces.flatten ++ (['\x22'] ++ rest)).length + 1 := by
      have hboth : List.Forall₂ (fun raw c => raw ≠ [] ∧ IsCharacter raw c) pieces text := by
        refine h.imp fun raw c hc => ⟨?_, hc⟩
        obtain ⟨first, cs, rfl, _⟩ := hc.exists_cons
        exact List.cons_ne_nil _ _
      have hle := length_le_flatten ((List.forall₂_and_left _ _).mp hboth).1
      rw [← h.length_eq, List.length_append]
      omega
    rw [List.append_assoc]
    exact many?_flatten hpieces (skip?_eq_some.mpr rfl) hlength

/-- All the digits at the front are read, so that no digit may follow the number. -/
theorem natural?_eq_some_iff {cs rest : List Char} {m : Nat} :
    natural? cs = some (m, rest) ↔ ∃ digits, IsNatural digits m ∧ cs = digits ++ rest ∧
      ∀ c ∈ rest.head?, c.isDigit = false := by
  unfold natural?
  constructor
  · intro h
    split at h
    · cases h
    · rename_i hzero
      obtain ⟨m', hm, heq⟩ := Option.map_eq_some_iff.mp h
      obtain ⟨rfl, rfl⟩ := Prod.mk.inj heq
      obtain ⟨hne, hdenotes⟩ := (Numeral.digits?_eq_some_iff (by omega)).mp hm
      refine ⟨cs.takeWhile Char.isDigit, ⟨hne, ?_, hdenotes⟩, ?_, ?_⟩
      · intro hhead
        by_contra hother
        exact hzero ⟨hhead, hother⟩
      · exact List.takeWhile_append_dropWhile.symm
      · intro c hc
        have hnot := List.head?_dropWhile_not Char.isDigit cs
        rw [hc] at hnot
        exact hnot
  · rintro ⟨digits, hdigits, rfl, hrest⟩
    have hall : ∀ c ∈ digits, c.isDigit = true := by
      obtain ⟨ds, hds, _⟩ := hdigits.denotes
      have hboth : List.Forall₂ (fun c d => c.isDigit = true ∧ Numeral.IsDigit 10 c d) digits ds :=
        hds.imp fun c d hd => ⟨hd.isDigit (Nat.le_refl 10), hd⟩
      exact ((List.forall₂_and_left _ _).mp hboth).1
    have htake : (digits ++ rest).takeWhile Char.isDigit = digits := by
      rw [List.takeWhile_append_of_pos hall]
      cases rest with
      | nil => simp
      | cons c rest => rw [List.takeWhile_cons_of_neg (by simp [hrest c rfl]), List.append_nil]
    have hdrop : (digits ++ rest).dropWhile Char.isDigit = rest := by
      rw [List.dropWhile_append_of_pos hall]
      cases rest with
      | nil => rfl
      | cons c rest => rw [List.dropWhile_cons_of_neg (by simp [hrest c rfl])]
    rw [htake, hdrop, if_neg fun hzero => hzero.2 (hdigits.no_leading_zero hzero.1),
      (Numeral.digits?_eq_some_iff (by omega)).mpr ⟨hdigits.ne_nil, hdigits.denotes⟩]
    rfl

theorem IsNatural.exists_cons {digits : List Char} {m : Nat} (h : IsNatural digits m) :
    ∃ c cs, digits = c :: cs ∧ c.isDigit = true := by
  obtain ⟨c, cs, rfl⟩ := List.exists_cons_of_ne_nil h.ne_nil
  obtain ⟨d, hd⟩ := h.denotes.exists_isDigit
  exact ⟨c, cs, rfl, hd.isDigit (Nat.le_refl 10)⟩

theorem IsNatural.head?_ne {digits : List Char} {m : Nat} (h : IsNatural digits m) {c : Char}
    (hc : c.isDigit = false) (rest : List Char) : (digits ++ rest).head? ≠ some c := by
  obtain ⟨d, cs, rfl, hd⟩ := h.exists_cons
  intro hhead
  obtain rfl := Option.some.inj hhead
  exact Bool.false_ne_true (hc.symm.trans hd)

theorem exists_isSpelled_of_lexeme? {cs rest : List Char} {l : Lexeme}
    (h : lexeme? cs = some (l, rest)) : ∃ raw, IsSpelled raw l ∧ cs = raw ++ rest := by
  rcases Option.or_eq_some_iff.mp h with hstring | ⟨_, h⟩
  · obtain ⟨ds, rfl, hds⟩ := Reader.behind_eq_some_iff.mp hstring
    obtain ⟨text, htext, rfl⟩ := Reader.map_eq_some_iff.mp hds
    obtain ⟨pieces, hpieces, rfl⟩ := characters?_eq_some_iff.mp htext
    rw [← String.toList_ofList (l := text)] at hpieces
    exact ⟨_, .string hpieces, rfl⟩
  rcases Option.or_eq_some_iff.mp h with hnegative | ⟨_, h⟩
  · obtain ⟨ds, rfl, hds⟩ := Reader.behind_eq_some_iff.mp hnegative
    obtain ⟨m, hm, rfl⟩ := Reader.map_eq_some_iff.mp hds
    obtain ⟨digits, hdigits, rfl, _⟩ := natural?_eq_some_iff.mp hm
    exact ⟨_, .negative hdigits, rfl⟩
  rcases Option.or_eq_some_iff.mp h with hnatural | ⟨_, hword⟩
  · obtain ⟨m, hm, rfl⟩ := Reader.map_eq_some_iff.mp hnatural
    obtain ⟨digits, hdigits, rfl, _⟩ := natural?_eq_some_iff.mp hm
    exact ⟨_, .natural hdigits, rfl⟩
  · obtain ⟨w, hw, hskip⟩ := List.exists_of_findSome?_eq_some hword
    obtain ⟨rest', hrest, heq⟩ := Option.map_eq_some_iff.mp hskip
    obtain ⟨rfl, rfl⟩ := Prod.mk.inj heq
    exact ⟨w.1, .word hw, skip?_eq_some.mp hrest⟩

/-- The digits of a number must not go on in what follows it. -/
def Lexeme.EndsBefore (l : Lexeme) (rest : List Char) : Prop :=
  ∀ n, l = .int n → ∀ c ∈ rest.head?, c.isDigit = false

theorem natural?_of_head? {cs : List Char} (h : ∀ c ∈ cs.head?, c.isDigit = false) :
    natural? cs = none := by
  rw [Option.eq_none_iff_forall_ne_some]
  rintro ⟨m, rest⟩ hread
  obtain ⟨digits, hdigits, rfl, _⟩ := natural?_eq_some_iff.mp hread
  obtain ⟨c, cs, rfl, hc⟩ := hdigits.exists_cons
  exact Bool.false_ne_true ((h c rfl).symm.trans hc)

/-- No word starts as a string, a number or a blank does. -/
theorem exists_cons_of_mem_words {raw : List Char} {l : Lexeme} (h : (raw, l) ∈ words) :
    ∃ c cs, raw = c :: cs ∧ c ≠ '\x22' ∧ c ≠ '-' ∧ c.isDigit = false ∧ isSpace c = false := by
  have hall : ∀ w ∈ words, w.1.head?.any (fun c =>
      c != '\x22' && (c != '-' && (!c.isDigit && !isSpace c))) = true := by decide
  obtain ⟨c, hc, hfirst⟩ := (Option.any_eq_true _ _).mp (hall _ h)
  obtain ⟨cs, rfl⟩ := List.head?_eq_some_iff.mp hc
  simp only [Bool.and_eq_true, bne_iff_ne, Bool.not_eq_true'] at hfirst
  exact ⟨c, cs, rfl, hfirst⟩

/-- The first character tells which word it is. -/
theorem word?_append {raw : List Char} {l : Lexeme} (h : (raw, l) ∈ words) (rest : List Char) :
    word? (raw ++ rest) = some (l, rest) := by
  cases hread : word? (raw ++ rest) with
  | none =>
    have hskip := List.findSome?_eq_none_iff.mp hread (raw, l) h
    rw [skip?_eq_some.mpr rfl] at hskip
    cases hskip
  | some p =>
    obtain ⟨w, hw, hskip⟩ := List.exists_of_findSome?_eq_some hread
    obtain ⟨rest', hrest, rfl⟩ := Option.map_eq_some_iff.mp hskip
    have hsplit := skip?_eq_some.mp hrest
    have hne : ∀ v ∈ words, v.1 ≠ [] := by decide
    have hunique : ∀ v ∈ words, ∀ w ∈ words, v.1.head? = w.1.head? → v = w := by decide
    have hhead := congrArg List.head? hsplit
    rw [List.head?_append_of_ne_nil _ (hne _ h), List.head?_append_of_ne_nil _ (hne _ hw)] at hhead
    obtain rfl := hunique _ h _ hw hhead
    rw [List.append_cancel_left hsplit]

theorem lexeme?_append {raw : List Char} {l : Lexeme} (h : IsSpelled raw l) {rest : List Char}
    (hrest : l.EndsBefore rest) : lexeme? (raw ++ rest) = some (l, rest) := by
  unfold lexeme?
  simp only [Option.or_eq_some_iff]
  cases h with
  | @string pieces text hpieces =>
    have hread : characters? (pieces.flatten ++ ['\x22'] ++ rest) = some (text.toList, rest) :=
      characters?_eq_some_iff.mpr ⟨pieces, hpieces, rfl⟩
    refine .inl (Reader.behind_eq_some_iff.mpr ⟨_, rfl, Reader.map_eq_some_iff.mpr ⟨_, hread, ?_⟩⟩)
    rw [String.ofList_toList]
  | @negative digits m hdigits =>
    have hread := natural?_eq_some_iff.mpr ⟨digits, hdigits, rfl, hrest _ rfl⟩
    refine .inr ⟨Reader.behind_of_head?_ne (by simp) [], .inl ?_⟩
    exact Reader.behind_eq_some_iff.mpr ⟨_, rfl, Reader.map_eq_some_iff.mpr ⟨m, hread, rfl⟩⟩
  | @natural _ m hdigits =>
    have hread := natural?_eq_some_iff.mpr ⟨raw, hdigits, rfl, hrest m rfl⟩
    refine .inr ⟨Reader.behind_of_head?_ne (hdigits.head?_ne rfl rest) [], .inr
      ⟨Reader.behind_of_head?_ne (hdigits.head?_ne rfl rest) [], .inl ?_⟩⟩
    exact Reader.map_eq_some_iff.mpr ⟨m, hread, rfl⟩
  | word hword =>
    have hread := word?_append hword rest
    obtain ⟨c, cs, rfl, hquote, hminus, hdigit, _⟩ := exists_cons_of_mem_words hword
    have hnatural : natural? (c :: cs ++ rest) = none := natural?_of_head? (by simpa using hdigit)
    refine .inr ⟨Reader.behind_of_head?_ne (by simpa using hquote) [], .inr
      ⟨Reader.behind_of_head?_ne (by simpa using hminus) [], .inr ⟨?_, hread⟩⟩⟩
    rw [Reader.map, hnatural, Option.map_none]

/-! ## Lexemes of a text -/

/-- Nothing, if only blanks are left. -/
def blank? (cs : List Char) : Option (List Char) := if cs.all isSpace then some [] else none

/-- A lexeme behind blanks. -/
def spaced? : Reader Char Lexeme := fun cs => lexeme? (cs.dropWhile isSpace)

/-- The lexemes of a text. -/
def lexemes? (cs : List Char) : Option (List Lexeme) :=
  (many? blank? spaced? (cs.length + 1) cs).map (·.1)

theorem spells_of_lexemes? {cs : List Char} {ls : List Lexeme} (h : lexemes? cs = some ls) :
    Spells cs ls := by
  obtain ⟨p, hp, rfl⟩ := Option.map_eq_some_iff.mp h
  have hread : ∀ cs l rest, spaced? cs = some (l, rest) →
      ∃ raw, Spells raw [l] ∧ cs = raw ++ rest := by
    intro cs l rest hl
    obtain ⟨raw, hraw, hrest⟩ := exists_isSpelled_of_lexeme? hl
    refine ⟨cs.takeWhile isSpace ++ raw, hraw.spells.blanks_append ?_, ?_⟩
    · exact fun c hc => List.all_eq_true.mp List.all_takeWhile c hc
    · rw [List.append_assoc, ← hrest, List.takeWhile_append_dropWhile]
  obtain ⟨raws, last, hraws, hlast, rfl⟩ := exists_flatten_of_many? hread hp
  have hblanks : ∀ c ∈ last, isSpace c = true := by
    unfold blank? at hlast
    split at hlast
    · rename_i hall
      exact List.all_eq_true.mp hall
    · cases hlast
  clear h hp
  generalize p.1 = ls at hraws
  induction hraws with
  | nil => exact .nil hblanks
  | cons hraw _ ih =>
    rw [List.flatten_cons, List.append_assoc]
    exact hraw.append ih

theorem isDigit_of_isSpace {c : Char} (h : isSpace c = true) : c.isDigit = false := by
  simp only [isSpace, Bool.or_eq_true, decide_eq_true_eq] at h
  rcases h with ((rfl | rfl) | rfl) | rfl <;> rfl

theorem IsSpelled.exists_cons {raw : List Char} {l : Lexeme} (h : IsSpelled raw l) :
    ∃ c cs, raw = c :: cs ∧ isSpace c = false := by
  cases h with
  | word hword =>
    obtain ⟨c, cs, rfl, _, _, _, hspace⟩ := exists_cons_of_mem_words hword
    exact ⟨c, cs, rfl, hspace⟩
  | natural hdigits =>
    obtain ⟨c, cs, rfl, hc⟩ := hdigits.exists_cons
    refine ⟨c, cs, rfl, Bool.eq_false_iff.mpr fun hspace => ?_⟩
    exact Bool.false_ne_true ((isDigit_of_isSpace hspace).symm.trans hc)
  | negative _ => exact ⟨'-', _, rfl, rfl⟩
  | string _ => exact ⟨'\x22', _, rfl, rfl⟩

theorem Spells.length_le {cs : List Char} {ls : List Lexeme} (h : Spells cs ls) :
    ls.length ≤ cs.length := by
  induction h with
  | nil _ => exact Nat.zero_le _
  | cons _ hraw _ ih =>
    obtain ⟨c, raw, rfl, _⟩ := hraw.exists_cons
    simp only [List.length_cons, List.length_append]
    omega

/-- A lexeme that is a mark. -/
def Lexeme.isMark : Lexeme → Bool
  | .mark _ => true
  | _ => false

/-- Of two lexemes that follow each other one is a mark. -/
def Apart (l m : Lexeme) : Prop := l.isMark = true ∨ m.isMark = true

theorem Spells.endsBefore {cs : List Char} {l : Lexeme} {ls : List Lexeme} (h : Spells cs ls)
    (hchain : List.IsChain Apart (l :: ls)) : l.EndsBefore cs := by
  rintro n rfl c hc
  cases h with
  | nil hblanks => exact isDigit_of_isSpace (hblanks c (List.mem_of_mem_head? hc))
  | @cons blanks raw cs m ls hblanks hraw hcs =>
    cases blanks with
    | cons blank blanks =>
      obtain rfl := Option.some.inj hc
      exact isDigit_of_isSpace (hblanks _ List.mem_cons_self)
    | nil =>
      -- the next lexeme is a mark, and none of these starts with a digit
      have hmark : m.isMark = true :=
        ((List.isChain_cons_cons.mp hchain).1).resolve_left Bool.false_ne_true
      cases hraw with
      | word hword =>
        obtain ⟨first, rest, rfl, _, _, hdigit, _⟩ := exists_cons_of_mem_words hword
        obtain rfl := Option.some.inj hc
        exact hdigit
      | natural _ => cases hmark
      | negative _ => cases hmark
      | string _ => cases hmark

theorem many?_of_spells {cs : List Char} {ls : List Lexeme} (h : Spells cs ls)
    (hchain : List.IsChain Apart ls) {fuel : Nat} (hfuel : ls.length < fuel) :
    many? blank? spaced? fuel cs = some (ls, []) := by
  induction h generalizing fuel with
  | nil hblanks =>
    cases fuel with
    | zero => omega
    | succ fuel =>
      refine Reader.step_eq_some_iff.mpr (.inl ⟨?_, rfl⟩)
      rw [blank?, if_pos (List.all_eq_true.mpr hblanks)]
  | @cons blanks raw cs l ls hblanks hraw hcs ih =>
    cases fuel with
    | zero => omega
    | succ fuel =>
      have hmany := ih (List.isChain_cons.mp hchain).2 (Nat.lt_of_succ_lt_succ hfuel)
      refine Reader.step_eq_some_iff.mpr (.inr ⟨?_, l, ls, cs, rfl, ?_, hmany⟩)
      · obtain ⟨c, raw, rfl, hc⟩ := hraw.exists_cons
        rw [blank?, if_neg]
        simp [hc]
      · have hread := lexeme?_append hraw (hcs.endsBefore hchain)
        obtain ⟨c, raw, rfl, hc⟩ := hraw.exists_cons
        rw [spaced?, List.dropWhile_append_of_pos hblanks, List.cons_append,
          List.dropWhile_cons_of_neg (by rw [hc]; decide)]
        exact hread

theorem lexemes?_of_spells {cs : List Char} {ls : List Lexeme} (h : Spells cs ls)
    (hchain : List.IsChain Apart ls) : lexemes? cs = some ls := by
  rw [lexemes?, many?_of_spells h hchain (Nat.lt_succ_of_le h.length_le)]
  rfl

end CommandLine.Json

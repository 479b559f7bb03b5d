import CommandLine.Numeral
import Mathlib.Data.List.Forall2
import Mathlib.Data.Nat.Digits.Defs

/-!
# The grammar of integer literals

What an integer literal is and which integer it stands for, without reference to the reader.

1. `Denotes` is the value of digits in a base, by positions.
2. `IsUnsigned` lists the three forms of an unsigned literal: hexadecimal, octal and decimal. All
   of them start with a decimal digit (`IsUnsigned.exists_cons`).
3. `IsLiteral` puts blanks and a sign in front, and bounds the magnitude.

The reader gives the value of exactly these literals (`read?_eq_some_iff`), and reading a number of
a type is that, narrowed to its range (`Number.read?_iff_isLiteral`).
-/

namespace CommandLine.Numeral

/-! ## Digits -/

/-- A character is the digit of a value below the base; letters count in either case. -/
def IsDigit (base : Nat) (c : Char) (d : Nat) : Prop := d < base ∧ c.toLower = d.digitChar

theorem toNat_toLower (c : Char) :
    c.toLower.toNat = if 65 ≤ c.toNat ∧ c.toNat ≤ 90 then c.toNat + 32 else c.toNat := by
  unfold Char.toLower
  split
  · rename_i h
    have hupper : 65 ≤ c.toNat ∧ c.toNat ≤ 90 := h
    rw [if_pos hupper]
    show (c.val + 32).toNat = c.toNat + 32
    rw [UInt32.toNat_add]
    show (c.toNat + 32) % 2 ^ 32 = c.toNat + 32
    omega
  · rename_i h
    have hother : ¬ (65 ≤ c.toNat ∧ c.toNat ≤ 90) := h
    rw [if_neg hother]

theorem toNat_digitChar {d : Nat} (h : d < 16) :
    d.digitChar.toNat = if d < 10 then 48 + d else 87 + d := by
  revert d
  decide

/-- Digits by their codes. -/
theorem isDigit_iff {base : Nat} (hbase : base ≤ 16) {c : Char} {d : Nat} :
    IsDigit base c d ↔ d < base ∧
      (if 65 ≤ c.toNat ∧ c.toNat ≤ 90 then c.toNat + 32 else c.toNat) =
        if d < 10 then 48 + d else 87 + d := by
  unfold IsDigit
  refine and_congr_right fun hd => ?_
  rw [← Char.toNat_inj, toNat_toLower, toNat_digitChar (Nat.lt_of_lt_of_le hd hbase)]

theorem digit?_eq_some_iff {base : Nat} (hbase : base ≤ 16) {c : Char} {d : Nat} :
    digit? base c = some d ↔ IsDigit base c d := by
  rw [isDigit_iff hbase]
  unfold digit?
  simp only [Option.filter_eq_some_iff, decide_eq_true_eq, Char.le_def, UInt32.le_iff_toNat_le]
  show ((if 48 ≤ c.toNat ∧ c.toNat ≤ 57 then some (c.toNat - 48)
    else if 97 ≤ c.toNat ∧ c.toNat ≤ 102 then some (c.toNat - 97 + 10)
    else if 65 ≤ c.toNat ∧ c.toNat ≤ 70 then some (c.toNat - 65 + 10) else none) = some d ∧ _) ↔ _
  split_ifs <;> simp only [Option.some.injEq, false_and, false_iff] <;> omega

/-- A digit of a base up to ten is a decimal digit. -/
theorem IsDigit.isDigit {base : Nat} (hbase : base ≤ 10) {c : Char} {d : Nat}
    (h : IsDigit base c d) : c.isDigit = true := by
  obtain ⟨hd, hcode⟩ := (isDigit_iff (by omega)).mp h
  have hrange : 48 ≤ c.toNat ∧ c.toNat ≤ 57 := by
    split_ifs at hcode <;> omega
  exact Char.isDigit_iff_toNat.mpr hrange

/-! ## Values of digits -/

/-- Characters are digits of a base, and stand for a number, the most significant digit first. -/
def Denotes (base : Nat) (cs : List Char) (m : Nat) : Prop :=
  ∃ ds, List.Forall₂ (IsDigit base) cs ds ∧ m = Nat.ofDigits base ds.reverse

theorem digitsFrom?_eq_some_iff {base : Nat} (hbase : base ≤ 16) {acc : Nat} {cs : List Char}
    {m : Nat} :
    digitsFrom? base acc cs = some m ↔ ∃ ds, List.Forall₂ (IsDigit base) cs ds ∧
      m = Nat.ofDigits base ds.reverse + base ^ ds.length * acc := by
  induction cs generalizing acc with
  | nil =>
    simp only [digitsFrom?, Option.some.injEq, List.forall₂_nil_left_iff, exists_eq_left,
      List.reverse_nil, Nat.ofDigits_nil, List.length_nil, pow_zero, one_mul, zero_add]
    exact eq_comm
  | cons c cs ih =>
    simp only [digitsFrom?, Option.bind_eq_some_iff, digit?_eq_some_iff hbase, ih,
      List.forall₂_cons_left_iff]
    -- both sides put the value of the first digit in front of the others
    have hshift : ∀ d (ds : List Nat), Nat.ofDigits base (d :: ds).reverse +
        base ^ (d :: ds).length * acc =
          Nat.ofDigits base ds.reverse + base ^ ds.length * (acc * base + d) := by
      intro d ds
      rw [Nat.ofDigits_reverse_cons, List.length_cons, pow_succ]
      ring
    constructor
    · rintro ⟨d, hd, ds, hds, rfl⟩
      exact ⟨d :: ds, ⟨d, ds, hd, hds, rfl⟩, (hshift d ds).symm⟩
    · rintro ⟨_, ⟨d, ds, hd, hds, rfl⟩, rfl⟩
      exact ⟨d, hd, ds, hds, hshift d ds⟩

theorem digits?_eq_some_iff {base : Nat} (hbase : base ≤ 16) {cs : List Char} {m : Nat} :
    digits? base cs = some m ↔ cs ≠ [] ∧ Denotes base cs m := by
  cases cs with
  | nil => simp [digits?]
  | cons c cs =>
    simp only [digits?, digitsFrom?_eq_some_iff hbase, mul_zero, add_zero, ne_eq, reduceCtorEq,
      not_false_eq_true, true_and]
    rfl

theorem Denotes.exists_isDigit {base : Nat} {c : Char} {cs : List Char} {m : Nat}
    (h : Denotes base (c :: cs) m) : ∃ d, IsDigit base c d := by
  obtain ⟨ds, hds, _⟩ := h
  obtain ⟨d, _, hd, _, _⟩ := List.forall₂_cons_left_iff.mp hds
  exact ⟨d, hd⟩

/-! ## Unsigned literals -/

/-- An unsigned literal and its magnitude: `0x` or `0X` and hexadecimal digits, `0` and octal
digits, or decimal digits without a leading zero, except that zero itself is written `0`. -/
inductive IsUnsigned : List Char → Nat → Prop
  | hexadecimal {x : Char} {digits : List Char} {m : Nat} (hx : x = 'x' ∨ x = 'X')
      (hdigits : digits ≠ []) (hm : Denotes 16 digits m) : IsUnsigned ('0' :: x :: digits) m
  | octal {digits : List Char} {m : Nat} (hdigits : digits ≠ []) (hm : Denotes 8 digits m) :
      IsUnsigned ('0' :: digits) m
  | decimal {digits : List Char} {m : Nat} (hdigits : digits ≠ [])
      (hzero : digits.head? = some '0' → digits = ['0']) (hm : Denotes 10 digits m) :
      IsUnsigned digits m

/-- An unsigned literal starts with a decimal digit. -/
theorem IsUnsigned.exists_cons {cs : List Char} {m : Nat} (h : IsUnsigned cs m) :
    ∃ c rest, cs = c :: rest ∧ c.isDigit = true := by
  cases h with
  | hexadecimal hx hdigits hm => exact ⟨'0', _, rfl, rfl⟩
  | octal hdigits hm => exact ⟨'0', _, rfl, rfl⟩
  | decimal hdigits hzero hm =>
    obtain ⟨c, rest, rfl⟩ := List.exists_cons_of_ne_nil hdigits
    obtain ⟨d, hd⟩ := hm.exists_isDigit
    exact ⟨c, rest, rfl, hd.isDigit (Nat.le_refl 10)⟩

theorem splitBase_octal {c : Char} {cs : List Char} (hx : c ≠ 'x') (hX : c ≠ 'X') :
    splitBase ('0' :: c :: cs) = (8, c :: cs) := by
  unfold splitBase
  split <;> simp_all

theorem splitBase_decimal {cs : List Char} (h : cs.head? = some '0' → cs = ['0']) :
    splitBase cs = (10, cs) := by
  unfold splitBase
  split <;> simp_all

theorem IsUnsigned.digits?_eq {cs : List Char} {m : Nat} (h : IsUnsigned cs m) :
    digits? (splitBase cs).1 (splitBase cs).2 = some m := by
  cases h with
  | hexadecimal hx hdigits hm =>
    have hdigits? := (digits?_eq_some_iff (Nat.le_refl 16)).mpr ⟨hdigits, hm⟩
    rcases hx with rfl | rfl
    · exact hdigits?
    · exact hdigits?
  | octal hdigits hm =>
    obtain ⟨c, rest, rfl⟩ := List.exists_cons_of_ne_nil hdigits
    -- the letters of the prefix are no octal digits
    obtain ⟨d, hd⟩ := hm.exists_isDigit
    have hdigit := hd.isDigit (by omega)
    rw [splitBase_octal (by rintro rfl; cases hdigit) (by rintro rfl; cases hdigit)]
    exact (digits?_eq_some_iff (by omega)).mpr ⟨hdigits, hm⟩
  | decimal hdigits hzero hm =>
    rw [splitBase_decimal hzero]
    exact (digits?_eq_some_iff (by omega)).mpr ⟨hdigits, hm⟩

theorem isUnsigned_of_digits? {cs : List Char} {m : Nat}
    (h : digits? (splitBase cs).1 (splitBase cs).2 = some m) : IsUnsigned cs m := by
  fun_cases splitBase cs with
  | case1 digits =>
    obtain ⟨hne, hm⟩ := (digits?_eq_some_iff (Nat.le_refl 16)).mp h
    exact .hexadecimal (.inl rfl) hne hm
  | case2 digits =>
    obtain ⟨hne, hm⟩ := (digits?_eq_some_iff (Nat.le_refl 16)).mp h
    exact .hexadecimal (.inr rfl) hne hm
  | case3 c digits hx hX =>
    rw [splitBase_octal hx hX] at h
    obtain ⟨hne, hm⟩ := (digits?_eq_some_iff (by omega)).mp h
    exact .octal hne hm
  | case4 cs _ _ hother =>
    have hlead : cs.head? = some '0' → cs = ['0'] := by
      intro hhead
      obtain ⟨rest, rfl⟩ := List.head?_eq_some_iff.mp hhead
      cases rest with
      | nil => rfl
      | cons c rest => exact (hother c rest rfl).elim
    rw [splitBase_decimal hlead] at h
    obtain ⟨hne, hm⟩ := (digits?_eq_some_iff (by omega)).mp h
    exact .decimal hne hlead hm

theorem magnitude?_eq_some_iff {cs : List Char} {m : Nat} :
    magnitude? cs = some m ↔ IsUnsigned cs m ∧ m < 2 ^ 64 := by
  unfold magnitude?
  simp only [Option.filter_eq_some_iff, decide_eq_true_eq]
  exact and_congr_left fun _ => ⟨isUnsigned_of_digits?, IsUnsigned.digits?_eq⟩

/-! ## Literals -/

/-- A sign or none, and whether it makes a literal negative. -/
inductive IsSign : List Char → Bool → Prop
  | none : IsSign [] false
  | plus : IsSign ['+'] false
  | minus : IsSign ['-'] true

/-- A token is an integer literal: blanks, a sign or none, and an unsigned literal of a magnitude
below `2 ^ 64`. -/
def IsLiteral (token : String) (n : Int) : Prop :=
  ∃ blanks sign digits negative m, token.toList = blanks ++ (sign ++ digits) ∧
    (∀ c ∈ blanks, Text.isBlank c = true) ∧ IsSign sign negative ∧ IsUnsigned digits m ∧
    m < 2 ^ 64 ∧ n = if negative then -(m : Int) else (m : Int)

theorem isBlank_of_isDigit {c : Char} (h : c.isDigit = true) : Text.isBlank c = false := by
  have hrange : 48 ≤ c.toNat ∧ c.toNat ≤ 57 := Char.isDigit_iff_toNat.mp h
  unfold Text.isBlank
  simp only [Bool.or_eq_false_iff, Bool.and_eq_false_iff, decide_eq_false_iff_not,
    beq_eq_false_iff_ne]
  omega

theorem splitSign_of_isDigit {c : Char} (h : c.isDigit = true) (cs : List Char) :
    splitSign (c :: cs) = (false, c :: cs) := by
  have hminus : c ≠ '-' := by rintro rfl; cases h
  have hplus : c ≠ '+' := by rintro rfl; cases h
  unfold splitSign
  split <;> simp_all

/-- What follows the blanks of a literal does not start with a blank, and splits at its sign. -/
theorem IsUnsigned.splitSign_eq {sign digits : List Char} {negative : Bool} {m : Nat}
    (hsign : IsSign sign negative) (h : IsUnsigned digits m) :
    splitSign (sign ++ digits) = (negative, digits) ∧
      ∀ c ∈ (sign ++ digits).head?, Text.isBlank c = false := by
  obtain ⟨c, rest, rfl, hc⟩ := h.exists_cons
  cases hsign with
  | none =>
    refine ⟨splitSign_of_isDigit hc rest, fun c' hc' => ?_⟩
    obtain rfl := Option.some.inj hc'
    exact isBlank_of_isDigit hc
  | plus =>
    refine ⟨rfl, fun c' hc' => ?_⟩
    obtain rfl := Option.some.inj hc'
    rfl
  | minus =>
    refine ⟨rfl, fun c' hc' => ?_⟩
    obtain rfl := Option.some.inj hc'
    rfl

theorem exists_isSign (cs : List Char) :
    ∃ sign, cs = sign ++ (splitSign cs).2 ∧ IsSign sign (splitSign cs).1 := by
  fun_cases splitSign cs with
  | case1 cs => exact ⟨['-'], rfl, .minus⟩
  | case2 cs => exact ⟨['+'], rfl, .plus⟩
  | case3 => exact ⟨[], rfl, .none⟩

theorem dropWhile_blanks {blanks cs : List Char} (hblanks : ∀ c ∈ blanks, Text.isBlank c = true)
    (hcs : ∀ c ∈ cs.head?, Text.isBlank c = false) :
    (blanks ++ cs).dropWhile Text.isBlank = cs := by
  rw [List.dropWhile_append_of_pos hblanks]
  cases cs with
  | nil => rfl
  | cons c rest => rw [List.dropWhile_cons_of_neg (by rw [hcs c rfl]; decide)]

theorem read?_eq (token : String) :
    read? token = (magnitude? (splitSign (token.toList.dropWhile Text.isBlank)).2).map
      fun m : Nat =>
        if (splitSign (token.toList.dropWhile Text.isBlank)).1 then -(m : Int) else (m : Int) := by
  simp only [read?]
  cases magnitude? (splitSign (token.toList.dropWhile Text.isBlank)).2 <;> rfl

/-- The reader gives the values of the literals, and of no other tokens. -/
theorem read?_eq_some_iff {token : String} {n : Int} :
    read? token = some n ↔ IsLiteral token n := by
  rw [read?_eq, Option.map_eq_some_iff]
  simp only [magnitude?_eq_some_iff]
  constructor
  · rintro ⟨m, ⟨hdigits, hm⟩, rfl⟩
    obtain ⟨sign, hsplit, hsign⟩ := exists_isSign (token.toList.dropWhile Text.isBlank)
    refine ⟨token.toList.takeWhile Text.isBlank, sign, _, _, m, ?_, ?_, hsign, hdigits, hm, rfl⟩
    · rw [← hsplit, List.takeWhile_append_dropWhile]
    · exact fun c hc => List.all_eq_true.mp List.all_takeWhile c hc
  · rintro ⟨blanks, sign, digits, negative, m, htoken, hblanks, hsign, hdigits, hm, rfl⟩
    obtain ⟨hsplit, hhead⟩ := hdigits.splitSign_eq hsign
    rw [htoken, dropWhile_blanks hblanks hhead, hsplit]
    exact ⟨m, ⟨hdigits, hm⟩, rfl⟩

end CommandLine.Numeral

namespace CommandLine.Number

open Numeral (IsLiteral)

theorem ofInt?_eq_some_iff {t : IntKind} {n : Int} {x : Number t} :
    Number.ofInt? t n = some x ↔ n = x.val := by
  unfold Number.ofInt?
  constructor
  · intro h
    split at h
    · cases h
      rfl
    · cases h
  · rintro rfl
    rw [dif_pos ⟨x.least_le, x.le_greatest⟩]

theorem ofInt?_eq_none_iff {t : IntKind} {n : Int} :
    Number.ofInt? t n = none ↔ n < t.least ∨ t.greatest < n := by
  unfold Number.ofInt?
  rw [dite_eq_right_iff]
  simp only [reduceCtorEq, imp_false, not_and_or, Int.not_le]

/-- Reading a number is narrowing the value of a literal. -/
theorem read?_of_isLiteral {token : String} {n : Int} (h : IsLiteral token n) (t : IntKind) :
    read? t token = ofInt? t n := by
  unfold read?
  rw [Numeral.read?_eq_some_iff.mpr h]
  rfl

theorem isLiteral_of_read? {t : IntKind} {token : String} {v : Number t}
    (h : read? t token = some v) : IsLiteral token v.val := by
  obtain ⟨n, hn, hv⟩ := Option.bind_eq_some_iff.mp h
  obtain rfl := ofInt?_eq_some_iff.mp hv
  exact Numeral.read?_eq_some_iff.mp hn

/-- **Integer literals.** The tokens that are read as numbers of a type are the integer literals
whose values are in its range, each with its value. All other tokens are refused. -/
theorem read?_iff_isLiteral (t : IntKind) (token : String) :
    (∀ v : Number t, read? t token = some v ↔ IsLiteral token v.val) ∧
      (read? t token = none ↔ ∀ n, IsLiteral token n → n < t.least ∨ t.greatest < n) := by
  refine ⟨fun v => ⟨isLiteral_of_read?, fun h => ?_⟩, fun hnone n hn => ?_, fun hout => ?_⟩
  · rw [read?_of_isLiteral h]
    exact ofInt?_eq_some_iff.mpr rfl
  · rw [read?_of_isLiteral hn] at hnone
    exact ofInt?_eq_none_iff.mp hnone
  · rw [Option.eq_none_iff_forall_ne_some]
    intro v hv
    have hrange := hout v.val (isLiteral_of_read? hv)
    have hleast := v.least_le
    have hgreatest := v.le_greatest
    omega

end CommandLine.Number

import CommandLine.Manifest.Build
import CommandLine.Proofs.Literal

/-!
# Integers written and read back

An integer is written as its sign and its magnitude in base ten, sixteen or eight.

1. The digits that are written for a number stand for it (`denotes_toDigits`), and only zero starts
   with the digit zero (`eq_zero_of_head?_toDigits`). So decimal text is not taken for octal.
2. Hence what is written is a literal of the integer (`IsRendering.isLiteral`), and reading it back
   narrows the integer to a type (`Number.read?_of_isRendering`).
3. A default in a manifest may be an integer or a text of it; both come to the same value, or both
   are refused (`Number.read?_rendering`).
-/

namespace CommandLine.Numeral

/-! ## Digits that are written -/

theorem toLower_of_isDigit {c : Char} (h : c.isDigit = true) : c.toLower = c := by
  have hrange : 48 ≤ c.toNat ∧ c.toNat ≤ 57 := Char.isDigit_iff_toNat.mp h
  rw [← Char.toNat_inj, toNat_toLower, if_neg (by omega)]

/-- The digits of a base up to ten have no letters. -/
theorem map_toLower_toDigits {base : Nat} (hbase : 0 < base) (hten : base ≤ 10) (m : Nat) :
    (Nat.toDigits base m).map Char.toLower = Nat.toDigits base m := by
  have hsame : ∀ c ∈ Nat.toDigits base m, c.toLower = id c := fun c hc =>
    toLower_of_isDigit (Nat.isDigit_of_mem_toDigits hbase hten hc)
  rw [List.map_congr_left hsame, List.map_id]

/-- One more digit at the end shifts the others by one place. -/
theorem Denotes.concat {base : Nat} {cs : List Char} {c : Char} {m d : Nat}
    (h : Denotes base cs m) (hd : IsDigit base c d) : Denotes base (cs ++ [c]) (base * m + d) := by
  obtain ⟨ds, hds, rfl⟩ := h
  refine ⟨ds ++ [d], List.rel_append hds (.cons hd .nil), ?_⟩
  rw [List.reverse_append, List.reverse_singleton, List.singleton_append, Nat.ofDigits_cons]
  exact Nat.add_comm _ _

/-- The digits that are written for a number stand for it, with letters in either case. -/
theorem denotes_toDigits {base : Nat} (hbase : 1 < base) {m : Nat} {cs : List Char}
    (h : cs.map Char.toLower = Nat.toDigits base m) : Denotes base cs m := by
  induction m using Nat.strong_induction_on generalizing cs with
  | _ m ih =>
    rw [Nat.toDigits_eq_if hbase] at h
    split at h
    · rename_i hlt
      obtain ⟨c, rfl, hc⟩ := List.map_eq_singleton_iff.mp h
      refine ⟨[m], .cons ⟨hlt, hc⟩ .nil, ?_⟩
      rw [List.reverse_singleton, Nat.ofDigits_singleton]
    · rename_i hle
      obtain ⟨front, last, rfl, hfront, hlast⟩ := List.map_eq_append_iff.mp h
      obtain ⟨c, rfl, hc⟩ := List.map_eq_singleton_iff.mp hlast
      have hlt : m / base < m := Nat.div_lt_self (by omega) hbase
      have hdenotes := (ih (m / base) hlt hfront).concat ⟨Nat.mod_lt m (by omega), hc⟩
      rwa [Nat.div_add_mod] at hdenotes

theorem eq_zero_of_head?_toDigits {base : Nat} (hbase : 1 < base) (hsixteen : base ≤ 16) {m : Nat}
    (h : (Nat.toDigits base m).head? = some '0') : m = 0 := by
  induction m using Nat.strong_induction_on with
  | _ m ih =>
    rw [Nat.toDigits_eq_if hbase] at h
    split at h
    · rename_i hlt
      have hcode := congrArg Char.toNat (Option.some.inj h)
      rw [toNat_digitChar (by omega)] at hcode
      have hzero : '0'.toNat = 48 := rfl
      split at hcode <;> omega
    · rename_i hle
      rw [List.head?_append_of_ne_nil _ Nat.toDigits_ne_nil] at h
      have hlt : m / base < m := Nat.div_lt_self (by omega) hbase
      have hzero := ih (m / base) hlt h
      rw [Nat.div_eq_zero_iff] at hzero
      omega

/-! ## Texts of an integer -/

/-- The texts of a magnitude: its decimal digits, `0x` or `0X` and its hexadecimal digits with
letters in either case, or `0` and its octal digits. -/
inductive Spells (m : Nat) : List Char → Prop
  | decimal : Spells m (Nat.toDigits 10 m)
  | hexadecimal {x : Char} {digits : List Char} (hx : x = 'x' ∨ x = 'X')
      (hdigits : digits.map Char.toLower = Nat.toDigits 16 m) : Spells m ('0' :: x :: digits)
  | octal : Spells m ('0' :: Nat.toDigits 8 m)

/-- The texts of an integer: its sign and a text of its magnitude. -/
def IsRendering (n : Int) (token : String) : Prop :=
  ∃ sign digits, token.toList = sign ++ digits ∧ IsSign sign (decide (n < 0)) ∧
    Spells n.natAbs digits

theorem Spells.isUnsigned {m : Nat} {cs : List Char} (h : Spells m cs) : IsUnsigned cs m := by
  cases h with
  | decimal =>
    refine .decimal Nat.toDigits_ne_nil (fun hhead => ?_) ?_
    · rw [eq_zero_of_head?_toDigits (by omega) (by omega) hhead]
      rfl
    · exact denotes_toDigits (by omega) (map_toLower_toDigits (by omega) (by omega) m)
  | hexadecimal hx hdigits =>
    refine .hexadecimal hx ?_ (denotes_toDigits (by omega) hdigits)
    rintro rfl
    exact Nat.toDigits_ne_nil hdigits.symm
  | octal =>
    refine .octal Nat.toDigits_ne_nil ?_
    exact denotes_toDigits (by omega) (map_toLower_toDigits (by omega) (by omega) m)

theorem IsRendering.isLiteral {n : Int} {token : String} (h : IsRendering n token)
    (hn : n.natAbs < 2 ^ 64) : IsLiteral token n := by
  obtain ⟨sign, digits, htoken, hsign, hdigits⟩ := h
  refine ⟨[], sign, digits, _, n.natAbs, htoken, by simp, hsign, hdigits.isUnsigned, hn, ?_⟩
  simp only [decide_eq_true_eq]
  omega

theorem isRendering_decimal (n : Int) : IsRendering n (Numeral.decimal n) := by
  unfold Numeral.decimal
  by_cases hn : n < 0
  · refine ⟨['-'], Nat.toDigits 10 n.natAbs, ?_, ?_, .decimal⟩
    · rw [if_pos hn, String.toList_ofList]
      rfl
    · rw [decide_eq_true hn]
      exact .minus
  · refine ⟨[], Nat.toDigits 10 n.natAbs, ?_, ?_, .decimal⟩
    · rw [if_neg hn, String.toList_ofList]
      rfl
    · rw [decide_eq_false hn]
      exact .none

end CommandLine.Numeral

namespace CommandLine

open Numeral (IsRendering)

theorem Number.read?_of_isRendering {n : Int} {token : String} (h : IsRendering n token)
    (hn : n.natAbs < 2 ^ 64) (t : IntKind) : Number.read? t token = Number.ofInt? t n :=
  read?_of_isLiteral (h.isLiteral hn) t

/-- Every number of a type is below the bound of magnitudes. -/
theorem Number.natAbs_val_lt {t : IntKind} (v : Number t) : v.val.natAbs < 2 ^ 64 := by
  obtain ⟨n, hleast, hgreatest⟩ := v
  show n.natAbs < 2 ^ 64
  cases t <;> simp only [IntKind.least, IntKind.greatest] at hleast hgreatest <;> omega

theorem Number.read?_decimal {t : IntKind} (v : Number t) (u : IntKind) :
    Number.read? u (Numeral.decimal v.val) = Number.ofInt? u v.val :=
  read?_of_isRendering (Numeral.isRendering_decimal v.val) v.natAbs_val_lt u

theorem Kind.toOption_ofDefault_int (t : IntKind) (v : Toml.Value) :
    (Kind.ofDefault (.int t) v).toOption = t.ofDefault? v := by
  rcases h : t.ofDefault? v with _ | n
  · simp only [Kind.ofDefault, h, Except.toOption]
  · simp only [Kind.ofDefault, h, Except.toOption]

/-- **Writing and reading back.** Every text of an integer of at most 64 bits reads back as that
integer, in each type that has it, and is refused in the others. So an integer of 64 bits and its
decimal text are the same default for a flag, or neither of them is one. -/
theorem Number.read?_rendering (t : IntKind) :
    (∀ (n : Int) (token : String), n.natAbs < 2 ^ 64 → IsRendering n token →
        Number.read? t token =
          if h : t.least ≤ n ∧ n ≤ t.greatest then some ⟨n, h.1, h.2⟩ else none) ∧
      ∀ n : Number .i64, (Kind.ofDefault (.int t) (.integer n.val)).toOption =
        (Kind.ofDefault (.int t) (.string (Numeral.decimal n.val))).toOption := by
  refine ⟨fun n token hn htoken => read?_of_isRendering htoken hn t, fun n => ?_⟩
  rw [Kind.toOption_ofDefault_int, Kind.toOption_ofDefault_int]
  show Number.ofInt? t n.val = Number.read? t (Numeral.decimal n.val)
  rw [n.read?_decimal]

theorem Number.read?_rendering_sample :
    Number.read? .u8 "0XfF" = some ⟨255, by decide, by decide⟩ ∧ Number.read? .i8 "0XfF" = none ∧
      Number.read? .i8 "-0200" = some ⟨-128, by decide, by decide⟩ := by
  have hhex : IsRendering 255 "0XfF" := ⟨[], ['0', 'X', 'f', 'F'], rfl, .none,
    .hexadecimal (.inr rfl) (by decide)⟩
  have hoctal : IsRendering (-128) "-0200" := ⟨['-'], ['0', '2', '0', '0'], rfl, .minus, .octal⟩
  refine ⟨?_, ?_, ?_⟩
  · rw [(read?_rendering .u8).1 255 _ (by decide) hhex, dif_pos (by decide)]
  · rw [(read?_rendering .i8).1 255 _ (by decide) hhex, dif_neg (by decide)]
  · rw [(read?_rendering .i8).1 (-128) _ (by decide) hoctal, dif_pos (by decide)]

end CommandLine

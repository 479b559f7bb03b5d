import CommandLine.Proofs.FlagNames
import CommandLine.Proofs.Rendering

/-!
# Lists of numbers on the command line

What a list of numbers makes of the decimal texts of numbers.

1. The flag test that ends a run and the reader of literals agree: what is read as a number never
   looks like a flag, since a minus sign stands before a digit (`looksLikeFlag_of_isLiteral`).
2. So the texts of numbers are a run, which is taken whole (`Flag.takes_decimals`), and they convert
   back to the numbers (`filterMap_read?_decimals`).
3. A step at the flag appends the numbers and goes on after their texts (`Registry.step_numbers`).
-/

namespace CommandLine

open Numeral (IsLiteral)

theorem looksLikeFlag_of_ne_dash {numeric : Bool} {token : String} {c : Char} {cs : List Char}
    (htoken : token.toList = c :: cs) (hc : c ≠ '-') : looksLikeFlag numeric token = false := by
  apply looksLikeFlag_of_not_startsWithDash
  unfold startsWithDash
  rw [htoken, List.head?_cons]
  simpa using hc

/-- A literal does not look like a flag among numbers. -/
theorem looksLikeFlag_of_isLiteral {token : String} {n : Int} (h : IsLiteral token n) :
    looksLikeFlag true token = false := by
  obtain ⟨blanks, sign, digits, negative, m, htoken, hblanks, hsign, hdigits, _, _⟩ := h
  obtain ⟨c, rest, rfl, hc⟩ := hdigits.exists_cons
  cases blanks with
  | cons b blanks =>
    have hb := hblanks b List.mem_cons_self
    exact looksLikeFlag_of_ne_dash htoken (by rintro rfl; cases hb)
  | nil =>
    cases hsign with
    | none => exact looksLikeFlag_of_ne_dash htoken (by rintro rfl; cases hc)
    | plus => exact looksLikeFlag_of_ne_dash htoken (by decide)
    | minus =>
      -- the only dash in front of a literal is followed by a digit
      rw [looksLikeFlag_of_toList htoken]
      show (!(true && (some c).any Char.isDigit)) = false
      rw [Option.any_some, hc]
      rfl

theorem looksLikeFlag_of_read? {t : IntKind} {token : String} {v : Number t}
    (h : Number.read? t token = some v) : looksLikeFlag true token = false :=
  looksLikeFlag_of_isLiteral (Number.isLiteral_of_read? h)

/-! ## The texts of numbers -/

/-- The decimal texts of numbers. -/
def Number.decimals {t : IntKind} (vs : List (Number t)) : List String :=
  vs.map fun v => Numeral.decimal v.val

section Decimals

variable {t : IntKind}

theorem Number.read?_decimal_self (v : Number t) :
    Kind.read? (.int t) (Numeral.decimal v.val) = some v :=
  (v.read?_decimal t).trans (Number.ofInt?_eq_some_iff.mpr rfl)

theorem Number.filterMap_read?_decimals (vs : List (Number t)) :
    (Number.decimals vs).filterMap (Kind.read? (.int t)) = vs := by
  unfold Number.decimals
  rw [List.filterMap_map]
  have hread : Kind.read? (.int t) ∘ (fun v : Number t => Numeral.decimal v.val) = some := by
    funext v
    exact v.read?_decimal_self
  rw [hread, List.filterMap_some]

/-- The texts of numbers are a run of a list of their type. -/
theorem Flag.takes_decimals {f : Flag} (hlist : f.isList = true) (hkind : f.kind = .int t)
    (vs : List (Number t)) {rest : List String}
    (hrest : ∀ token ∈ rest.head?, looksLikeFlag true token = true) :
    f.Takes (Number.decimals vs) rest := by
  have hread : ∀ token ∈ Number.decimals vs, ∃ v, Kind.read? (.int t) token = some v := by
    intro token htoken
    obtain ⟨v, _, rfl⟩ := List.mem_map.mp htoken
    exact ⟨v, v.read?_decimal_self⟩
  refine .list hlist ?_ ?_ ?_
  · intro token htoken
    rw [hkind, Option.isSome_iff_exists]
    exact hread token htoken
  · intro token htoken
    obtain ⟨v, hv⟩ := hread token htoken
    rw [hkind]
    exact looksLikeFlag_of_read? hv
  · rw [hkind]
    exact hrest

end Decimals

namespace Registry

/-- **Lists of numbers.** In a scope of a reachable registry, whatever was read into it before, a
step at the long name of a list of numbers takes the decimal texts of numbers that follow, up to the
end of the line or to a token that looks like a flag. It appends the numbers to the list, changes
nothing else, and reading goes on after the texts. What is read as a number, of any type, never
looks like a flag. -/
theorem step_numbers {r : Registry} (hr : r.Reachable) {id : ScopeId} {declared s : Scope}
    (hscope : r.scope id = .ok declared) (hs : declared.SameDeclared s) {index : Nat} {f : Flag}
    {name : String} {t : IntKind} {old : List (Number t)} (hf : s.flags[index]? = some f)
    (hvalue : f.value = .list ⟨.int t, old⟩) (hfind : s.findLong name = some index)
    (vs : List (Number t)) {rest : List String}
    (hrest : ∀ token ∈ rest.head?, looksLikeFlag true token = true) :
    s.step r.config.maxPositionals ("--" ++ name) (Number.decimals vs ++ rest) =
        .ok (s.setValue index (.list ⟨.int t, old ++ vs⟩), vs.length) ∧
      s.feed r.config.maxPositionals (("--" ++ name) :: (Number.decimals vs ++ rest)) =
        (s.setValue index (.list ⟨.int t, old ++ vs⟩)).feed r.config.maxPositionals rest ∧
      ∀ (u : IntKind) (token : String), (Number.read? u token).isSome = true →
        looksLikeFlag true token = false := by
  have hnames : s.HasLongNames := (hr.hasLongNames id declared hscope).congr hs.declarations_eq
  have hlist : f.isList = true := by
    unfold Flag.isList
    rw [hvalue]
    rfl
  have hkind : f.kind = .int t := by
    unfold Flag.kind
    rw [hvalue]
    rfl
  have hgiven : f.value.given (Number.decimals vs) = .list ⟨.int t, old ++ vs⟩ := by
    rw [hvalue]
    show Value.list ⟨.int t, old ++ (Number.decimals vs).filterMap (Kind.read? (.int t))⟩ = _
    rw [Number.filterMap_read?_decimals]
  have hlength : (Number.decimals vs).length = vs.length := List.length_map _
  have hitem : (Item.flag index ("--" ++ name) (Number.decimals vs)).Fits s rest :=
    .flag (hnames.resolves hfind) hf (Flag.takes_decimals hlist hkind vs hrest)
  have hafter : s.after (.flag index ("--" ++ name) (Number.decimals vs)) =
      s.setValue index (.list ⟨.int t, old ++ vs⟩) := by
    rw [← hgiven, Scope.setValue_given hf]
  refine ⟨?_, ?_, fun u token htoken => ?_⟩
  · rw [Scope.step_of_fits hitem (.inl rfl) rfl, hafter, hlength]
  · rw [← hafter]
    exact Scope.feed_of_fits hitem (.inl rfl)
  · obtain ⟨v, hv⟩ := Option.isSome_iff_exists.mp htoken
    exact looksLikeFlag_of_read? hv

/-- The scope of the subcommand of the sample, once a number was read into its list. -/
def sampleWithNumber : Scope := (sample.parse ["build", "--ids", "5"]).1.activeScope

/-- The least and the greatest number of 8 bits. -/
def sampleNumbers : List (Number .i8) :=
  [⟨-128, by decide, by decide⟩, ⟨127, by decide, by decide⟩]

theorem step_numbers_sample :
    sampleWithNumber.step 2 "--ids" ["-128", "127", "-n", "x"] =
      .ok (sampleWithNumber.setValue 1
        (.list ⟨.int .i8, ⟨5, by decide, by decide⟩ :: sampleNumbers⟩), 2) := by
  have hr : (sample.parse ["build", "--ids", "5"]).1.Reachable :=
    reachable_sample.perform (.parse ["build", "--ids", "5"])
  have hscope : (sample.parse ["build", "--ids", "5"]).1.scope (.subcommand 0) =
      .ok sampleWithNumber := by decide +kernel
  have hvalue : sampleWithNumber.flags[1]?.map (·.value) =
      some (.list ⟨.int .i8, [⟨5, by decide, by decide⟩]⟩) := by decide +kernel
  have hfind : sampleWithNumber.findLong "ids" = some 1 := by decide +kernel
  have hrest : ∀ token ∈ ["-n", "x"].head?, looksLikeFlag true token = true := by decide
  have hlimit : (sample.parse ["build", "--ids", "5"]).1.config.maxPositionals = 2 := by
    decide +kernel
  have htexts : Number.decimals sampleNumbers ++ ["-n", "x"] = ["-128", "127", "-n", "x"] := by
    decide +kernel
  obtain ⟨f, hf, hvalue⟩ := Option.map_eq_some_iff.mp hvalue
  have hstep := (step_numbers hr hscope (.refl _) hf hvalue hfind sampleNumbers hrest).1
  rw [hlimit, htexts] at hstep
  exact hstep

end Registry

end CommandLine

import CommandLine.Proofs.JsonLexer

/-!
# Decoding JSON texts

A decoder for JSON texts whose numbers are integers. It cuts a text into lexemes and reads a value
from them.

1. One of any two neighbours among the lexemes of a value is a mark (`isChain_lexemes`), so that the
   text of a value is cut into just these.
2. `value?` reads the lexemes of a value and nothing else (`eq_of_value?` and `value?_append`);
   arrays and objects are both sequences with commas (`sequence?`).
3. So the decoder gives the value of exactly the texts of the grammar (`decode?_eq_some_iff`). A
   text has one value at most, and both layouts of a value decode to it.
-/

namespace CommandLine.Json

/-! ## Values are kept apart -/

theorem isChain_append_mark {ls ms : List Lexeme} (hls : List.IsChain Apart ls)
    (hms : List.IsChain Apart ms) (m : Mark) : List.IsChain Apart (ls ++ .mark m :: ms) := by
  rw [List.isChain_append, List.isChain_cons]
  refine ⟨hls, ⟨fun _ _ => .inl rfl, hms⟩, fun l _ k hk => ?_⟩
  obtain rfl := Option.some.inj hk
  exact .inr rfl

theorem isChain_enclosed {ls : List Lexeme} (h : List.IsChain Apart ls) (m k : Mark) :
    List.IsChain Apart (.mark m :: ls ++ [.mark k]) :=
  isChain_append_mark (isChain_append_mark .nil h m) .nil k

theorem isChain_intercalate {parts : List (List Lexeme)}
    (h : ∀ part ∈ parts, List.IsChain Apart part) :
    List.IsChain Apart ([.mark .comma].intercalate parts) := by
  induction parts with
  | nil => exact .nil
  | cons part parts ih =>
    obtain ⟨hpart, hparts⟩ := List.forall_mem_cons.mp h
    cases parts with
    | nil => rwa [List.intercalate_singleton]
    | cons next parts =>
      rw [List.intercalate_cons_cons, List.append_assoc]
      exact isChain_append_mark hpart (ih hparts) .comma

theorem isChain_lexemes (j : Json) : List.IsChain Apart j.lexemes := by
  induction j using Json.induction with
  | array items ih =>
    rw [lexemes, itemLexemes_eq]
    refine isChain_enclosed (isChain_intercalate ?_) _ _
    simpa using ih
  | object fields ih =>
    rw [lexemes, fieldLexemes_eq]
    refine isChain_enclosed (isChain_intercalate fun part hpart => ?_) _ _
    obtain ⟨f, hf, rfl⟩ := List.mem_map.mp hpart
    exact isChain_append_mark (.singleton (.string f.1)) (ih f hf) .colon
  | _ => exact .singleton _

/-! ## Values -/

/-- Things with commas between them, up to a closing mark. -/
def sequence? {α : Type} (close : Mark) (read? : Reader Lexeme α) (fuel : Nat) :
    Reader Lexeme (List α) :=
  Reader.step (skip? [.mark close]) read?
    (many? (skip? [.mark close]) (read?.behind [.mark .comma]) fuel)

/-- A name, a colon and what stands under the name. -/
def field? {α : Type} (read? : Reader Lexeme α) : Reader Lexeme (String × α)
  | .string name :: ts => ((read?.behind [.mark .colon]).map (name, ·)) ts
  | _ => none

/-- A value. The fuel is at least the number of its lexemes, and so more than the number of items
or fields at each level. -/
def value? : Nat → Reader Lexeme Json
  | 0, _ => none
  | _ + 1, .null :: ts => some (.null, ts)
  | _ + 1, .bool b :: ts => some (.bool b, ts)
  | _ + 1, .int n :: ts => some (.int n, ts)
  | _ + 1, .string text :: ts => some (.string text, ts)
  | fuel + 1, .mark .openArray :: ts => (sequence? .closeArray (value? fuel) fuel).map .array ts
  | fuel + 1, .mark .openObject :: ts =>
    (sequence? .closeObject (field? (value? fuel)) fuel).map .object ts
  | _ + 1, _ => none

theorem intercalate_cons {τ : Type} (c : τ) (part : List τ) (parts : List (List τ)) :
    [c].intercalate (part :: parts) = part ++ (parts.map (c :: ·)).flatten := by
  induction parts generalizing part with
  | nil => rw [List.intercalate_singleton, List.map_nil, List.flatten_nil, List.append_nil]
  | cons next parts ih =>
    rw [List.intercalate_cons_cons, ih, List.map_cons, List.flatten_cons]
    simp

theorem length_le_intercalate {τ : Type} (c : τ) (parts : List (List τ)) :
    parts.length ≤ ([c].intercalate parts).length + 1 := by
  cases parts with
  | nil => exact Nat.zero_le _
  | cons part parts =>
    have hle : (parts.map (c :: ·)).length ≤ _ := length_le_flatten (by simp)
    rw [List.length_map] at hle
    rw [intercalate_cons, List.length_append, List.length_cons]
    omega

theorem length_le_intercalate_of_mem {τ : Type} (c : τ) {part : List τ} {parts : List (List τ)}
    (h : part ∈ parts) : part.length ≤ ([c].intercalate parts).length := by
  cases parts with
  | nil => cases h
  | cons first parts =>
    rw [intercalate_cons, List.length_append]
    rcases List.mem_cons.mp h with rfl | h
    · omega
    · have hsub := List.sublist_flatten_of_mem (List.mem_map_of_mem (f := (c :: ·)) h)
      have hle := hsub.length_le
      rw [List.length_cons] at hle
      omega

section Sequences

variable {α : Type} {close : Mark} {read? : Reader Lexeme α} {write : α → List Lexeme}

theorem eq_of_sequence?
    (hread : ∀ ts a rest, read? ts = some (a, rest) → ts = write a ++ rest)
    {fuel : Nat} {ts rest : List Lexeme} {as : List α}
    (h : sequence? close read? fuel ts = some (as, rest)) :
    ts = [.mark .comma].intercalate (as.map write) ++ .mark close :: rest := by
  rcases Reader.step_eq_some_iff.mp h with ⟨hstop, rfl⟩ | ⟨_, a, bs, us, rfl, ha, hbs⟩
  · rw [skip?_eq_some.mp hstop]
    rfl
  · have hnext : ∀ ts b rest, read?.behind [.mark .comma] ts = some (b, rest) →
        ∃ raw, raw = .mark .comma :: write b ∧ ts = raw ++ rest := by
      intro ts b rest hts
      obtain ⟨us, rfl, hb⟩ := Reader.behind_eq_some_iff.mp hts
      rw [hread _ _ _ hb]
      exact ⟨_, rfl, rfl⟩
    obtain ⟨raws, last, hraws, hlast, rfl⟩ := exists_flatten_of_many? hnext hbs
    have hparts : raws = bs.map (.mark .comma :: write ·) := by
      rw [← List.forall₂_eq_eq_eq, List.forall₂_map_right_iff]
      exact hraws
    rw [hread _ _ _ ha, skip?_eq_some.mp hlast, hparts, List.map_cons, intercalate_cons,
      List.map_map, List.append_assoc]
    rfl

theorem sequence?_append (hclose : close ≠ .comma) {as : List α}
    (hopen : ∀ a ∈ as, ∃ l ls, write a = l :: ls ∧ l ≠ .mark close) {fuel : Nat}
    (hread : ∀ a ∈ as, (write a).length ≤ fuel →
      ∀ rest, read? (write a ++ rest) = some (a, rest))
    (hfuel : ([.mark .comma].intercalate (as.map write)).length < fuel) (rest : List Lexeme) :
    sequence? close read? fuel
      ([.mark .comma].intercalate (as.map write) ++ .mark close :: rest) = some (as, rest) := by
  have hcount : as.length ≤ fuel := by
    have hle := length_le_intercalate (.mark .comma) (as.map write)
    rw [List.length_map] at hle
    omega
  have hread : ∀ a ∈ as, ∀ rest, read? (write a ++ rest) = some (a, rest) := by
    intro a ha
    have hle := length_le_intercalate_of_mem (.mark .comma) (List.mem_map_of_mem (f := write) ha)
    exact hread a ha (by omega)
  have hend : skip? [.mark close] (.mark close :: rest) = some rest := skip?_eq_some.mpr rfl
  refine Reader.step_eq_some_iff.mpr ?_
  cases as with
  | nil => exact .inl ⟨hend, rfl⟩
  | cons a as =>
    obtain ⟨ha, has⟩ := List.forall_mem_cons.mp hread
    -- neither the comma before a later thing nor the first thing is taken for the closing mark
    have hparts : List.Forall₂ (fun raw b => ∀ rest, skip? [.mark close] (raw ++ rest) = none ∧
        read?.behind [.mark .comma] (raw ++ rest) = some (b, rest))
        (as.map (.mark .comma :: write ·)) as := by
      rw [List.forall₂_map_left_iff]
      refine List.forall₂_same.mpr fun b hb rest => ⟨skip?_of_head?_ne ?_ [], ?_⟩
      · exact fun heq => hclose (Lexeme.mark.inj (Option.some.inj heq)).symm
      · exact Reader.behind_eq_some_iff.mpr ⟨_, rfl, has b hb rest⟩
    have hfirst : ∀ rest, skip? [.mark close] (write a ++ rest) = none := by
      obtain ⟨l, ls, hl, hne⟩ := hopen a List.mem_cons_self
      intro rest
      refine skip?_of_head?_ne ?_ []
      rw [hl]
      exact fun heq => hne (Option.some.inj heq)
    rw [List.map_cons, intercalate_cons, List.map_map, List.append_assoc]
    exact .inr ⟨hfirst _, a, as, _, rfl, ha _, many?_flatten hparts hend hcount⟩

end Sequences

theorem exists_lexemes_eq_cons (j : Json) :
    ∃ l ls, j.lexemes = l :: ls ∧ l ≠ .mark .closeArray := by
  cases j <;> exact ⟨_, _, rfl, by simp⟩

theorem field?_eq_some_iff {α : Type} {read? : Reader Lexeme α} {ts rest : List Lexeme}
    {f : String × α} : field? read? ts = some (f, rest) ↔
      ∃ us, ts = .string f.1 :: .mark .colon :: us ∧ read? us = some (f.2, rest) := by
  constructor
  · intro h
    unfold field? at h
    split at h
    · obtain ⟨a, ha, rfl⟩ := Reader.map_eq_some_iff.mp h
      obtain ⟨us, rfl, hus⟩ := Reader.behind_eq_some_iff.mp ha
      exact ⟨us, rfl, hus⟩
    · cases h
  · rintro ⟨us, rfl, hread⟩
    exact Reader.map_eq_some_iff.mpr ⟨f.2, Reader.behind_eq_some_iff.mpr ⟨us, rfl, hread⟩, rfl⟩

theorem eq_of_value? {fuel : Nat} {ts rest : List Lexeme} {j : Json}
    (h : value? fuel ts = some (j, rest)) : ts = j.lexemes ++ rest := by
  -- the members of an array or an object are read with the fuel that is left for them
  induction fuel generalizing ts j rest with
  | zero => cases h
  | succ fuel ih =>
    have hvalue : ∀ ts j rest, value? fuel ts = some (j, rest) → ts = j.lexemes ++ rest :=
      fun _ _ _ => ih
    have hfield : ∀ ts f rest, field? (value? fuel) ts = some (f, rest) →
        ts = member f ++ rest := by
      intro ts f rest hf
      obtain ⟨us, rfl, hus⟩ := field?_eq_some_iff.mp hf
      rw [ih hus]
      rfl
    cases ts with
    | nil => cases h
    | cons l us =>
      cases l with
      | mark m =>
        cases m with
        | openArray =>
          obtain ⟨items, hitems, rfl⟩ := Reader.map_eq_some_iff.mp h
          rw [eq_of_sequence? hvalue hitems, lexemes, itemLexemes_eq]
          simp
        | openObject =>
          obtain ⟨fields, hfields, rfl⟩ := Reader.map_eq_some_iff.mp h
          rw [eq_of_sequence? hfield hfields, lexemes, fieldLexemes_eq]
          simp
        | _ => cases h
      | _ =>
        obtain ⟨rfl, rfl⟩ := Prod.mk.inj (Option.some.inj h)
        rfl

/-- The lexemes of a value are read as that value, whatever follows them. -/
theorem value?_append {j : Json} {fuel : Nat} (h : j.lexemes.length ≤ fuel)
    (rest : List Lexeme) : value? fuel (j.lexemes ++ rest) = some (j, rest) := by
  induction j using Json.induction generalizing fuel rest with
  | array items ih =>
    rw [lexemes, itemLexemes_eq] at h ⊢
    rw [List.length_append, List.length_cons, List.length_singleton] at h
    obtain ⟨fuel, rfl⟩ := Nat.exists_eq_succ_of_ne_zero (show fuel ≠ 0 by omega)
    have hfuel : ([.mark .comma].intercalate (items.map lexemes)).length < fuel := by omega
    have hread := sequence?_append (show Mark.closeArray ≠ .comma by decide)
      (fun j _ => exists_lexemes_eq_cons j) (fun j hj hle => ih j hj hle) hfuel rest
    rw [List.append_assoc, List.cons_append, List.singleton_append]
    exact Reader.map_eq_some_iff.mpr ⟨_, hread, rfl⟩
  | object fields ih =>
    rw [lexemes, fieldLexemes_eq] at h ⊢
    rw [List.length_append, List.length_cons, List.length_singleton] at h
    obtain ⟨fuel, rfl⟩ := Nat.exists_eq_succ_of_ne_zero (show fuel ≠ 0 by omega)
    have hfields : ∀ f ∈ fields, (member f).length ≤ fuel →
        ∀ rest, field? (value? fuel) (member f ++ rest) = some (f, rest) := by
      intro f hf hle rest
      rw [member, List.length_cons, List.length_cons] at hle
      exact field?_eq_some_iff.mpr ⟨_, rfl, ih f hf (by omega) rest⟩
    have hfuel : ([.mark .comma].intercalate (fields.map member)).length < fuel := by omega
    have hread := sequence?_append (show Mark.closeObject ≠ .comma by decide)
      (fun f _ => ⟨_, _, rfl, by simp⟩) hfields hfuel rest
    rw [List.append_assoc, List.cons_append, List.singleton_append]
    exact Reader.map_eq_some_iff.mpr ⟨_, hread, rfl⟩
  | _ =>
    rw [lexemes, List.length_singleton] at h
    obtain ⟨fuel, rfl⟩ := Nat.exists_eq_succ_of_ne_zero (show fuel ≠ 0 by omega)
    rfl

/-! ## Texts -/

/-- The value of a JSON text. -/
def decode? (text : String) : Option Json :=
  (lexemes? text.toList).bind fun ls =>
    (value? ls.length ls).bind fun p => if p.2 = [] then some p.1 else none

/-- The decoder gives the value of every text of the grammar, and of no other. -/
theorem decode?_eq_some_iff {text : String} {j : Json} :
    decode? text = some j ↔ IsText text j := by
  unfold decode?
  constructor
  · intro h
    obtain ⟨ls, hls, hvalue⟩ := Option.bind_eq_some_iff.mp h
    obtain ⟨⟨j', rest⟩, hj, hend⟩ := Option.bind_eq_some_iff.mp hvalue
    split at hend
    · rename_i hnil
      obtain rfl := Option.some.inj hend
      obtain rfl : rest = [] := hnil
      have hspells := spells_of_lexemes? hls
      rwa [eq_of_value? hj, List.append_nil] at hspells
    · cases hend
  · intro h
    have hvalue := value?_append (Nat.le_refl j.lexemes.length) []
    rw [List.append_nil] at hvalue
    rw [lexemes?_of_spells h (isChain_lexemes j), Option.bind_some, hvalue, Option.bind_some,
      if_pos rfl]

end CommandLine.Json

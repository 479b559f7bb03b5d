import CommandLine.Proofs.JsonDecode
import CommandLine.Proofs.Report

/-!
# The text of a report

A report can be written on one line or over several. Both texts stand for the same value, and that
value shows what the registry holds.

1. Texts are ordered as their bytes in UTF-8 are (`Text.utf8_lt_utf8`). So the fields of a scope
   ascend by the bytes of their names, whatever the order of the flags (`pairwise_flagFields`), and
   there is one for each key (`mem_keys_flagFields`).
2. `Report.Shows` says what a value of a report looks like, without reference to how it is made.
3. Both texts decode to such a value (`report_decodes`). Nothing is lost in it, since two values of
   one kind are never shown in the same way (`ShowsValue.unique`).
-/

namespace CommandLine

/-! ## The order of texts -/

namespace Text

/-- The bytes of a text in UTF-8. -/
def utf8 (text : String) : List UInt8 := text.toUTF8.data.toList

theorem utf8_eq (text : String) : utf8 text = text.toList.flatMap String.utf8EncodeChar := by
  unfold utf8
  rw [String.toUTF8_eq_toByteArray, ← String.utf8Encode_toList, List.utf8Encode,
    List.toList_data_toByteArray]

/-- The bytes of a greater character are greater, whatever follows them. A longer code starts with
a greater byte, and codes of one length compare by their digits in base 64. -/
theorem utf8EncodeChar_append_lt {a b : Char} (h : a < b) (x y : List UInt8) :
    String.utf8EncodeChar a ++ x < String.utf8EncodeChar b ++ y := by
  have hlt : a.val.toNat < b.val.toNat := UInt32.lt_iff_toNat_lt.mp h
  have hvalid : b.val.toNat < 0x110000 := by
    rcases b.valid with hlow | hhigh
    · omega
    · exact hhigh.2
  unfold String.utf8EncodeChar
  generalize a.val.toNat = m at hlt ⊢
  generalize b.val.toNat = n at hlt hvalid ⊢
  have hdigits : m / 262144 < n / 262144 ∨ m / 262144 = n / 262144 ∧
      (m / 4096 % 64 < n / 4096 % 64 ∨ m / 4096 % 64 = n / 4096 % 64 ∧
        (m / 64 % 64 < n / 64 % 64 ∨ m / 64 % 64 = n / 64 % 64 ∧ m % 64 < n % 64)) := by
    omega
  simp only
  split_ifs
  all_goals
    simp (disch := omega) only [List.cons_append, List.nil_append, List.cons_lt_cons_iff,
      UInt8.lt_iff_toNat_lt, ← UInt8.toNat_inj, UInt8.toNat_ofNat', Nat.mod_eq_of_lt]
    omega

theorem flatMap_utf8EncodeChar_lt {cs ds : List Char} (h : cs < ds) :
    cs.flatMap String.utf8EncodeChar < ds.flatMap String.utf8EncodeChar := by
  induction cs generalizing ds with
  | nil =>
    cases ds with
    | nil => exact absurd h (List.lt_irrefl [])
    | cons d ds =>
      have hne : String.utf8EncodeChar d ≠ [] := String.utf8EncodeChar_ne_nil
      obtain ⟨byte, bytes, hd⟩ := List.exists_cons_of_ne_nil hne
      rw [List.flatMap_nil, List.flatMap_cons, hd]
      exact List.nil_lt_cons _ _
  | cons c cs ih =>
    cases ds with
    | nil => exact absurd h (List.not_lt_nil _)
    | cons d ds =>
      rw [List.flatMap_cons, List.flatMap_cons]
      rcases List.cons_lt_cons_iff.mp h with hlt | ⟨rfl, htail⟩
      · exact utf8EncodeChar_append_lt hlt _ _
      · exact List.append_left_lt (ih htail)

theorem utf8_lt_utf8 {a b : String} (h : a < b) : utf8 a < utf8 b := by
  rw [utf8_eq, utf8_eq]
  exact flatMap_utf8EncodeChar_lt (String.lt_iff.mp h)

end Text

/-! ## The fields of flags -/

namespace Report

theorem mem_insertField {name : String} {j : Json} {fields : List (String × Json)}
    {f : String × Json} (h : f ∈ insertField name j fields) : f = (name, j) ∨ f ∈ fields := by
  induction fields with
  | nil => exact .inl (List.mem_singleton.mp h)
  | cons g fields ih =>
    obtain ⟨n, i⟩ := g
    unfold insertField at h
    split at h
    · exact List.mem_cons.mp h
    · split at h
      · rcases List.mem_cons.mp h with rfl | hf
        · exact .inl rfl
        · exact .inr (List.mem_cons_of_mem _ hf)
      · rcases List.mem_cons.mp h with rfl | hf
        · exact .inr List.mem_cons_self
        · exact (ih hf).imp_right (List.mem_cons_of_mem _)

/-- A field is put where it belongs. -/
theorem pairwise_insertField (name : String) (j : Json) {fields : List (String × Json)}
    (h : fields.Pairwise (·.1 < ·.1)) : (insertField name j fields).Pairwise (·.1 < ·.1) := by
  induction fields with
  | nil => exact List.pairwise_singleton _ _
  | cons g fields ih =>
    obtain ⟨n, i⟩ := g
    obtain ⟨hn, hfields⟩ := List.pairwise_cons.mp h
    unfold insertField
    split
    · rename_i hlt
      refine List.pairwise_cons.mpr ⟨fun f hf => ?_, h⟩
      rcases List.mem_cons.mp hf with rfl | hf
      · exact hlt
      · exact String.lt_trans hlt (hn f hf)
    · rename_i hnot
      split
      · rename_i heq
        subst heq
        exact List.pairwise_cons.mpr ⟨hn, hfields⟩
      · rename_i hne
        have hlt : n < name := Std.lt_of_le_of_ne (String.not_lt.mp hnot) (Ne.symm hne)
        refine List.pairwise_cons.mpr ⟨fun f hf => ?_, ih hfields⟩
        rcases mem_insertField hf with rfl | hf
        · exact hlt
        · exact hn f hf

theorem pairwise_flagFields (flags : List Flag) : (flagFields flags).Pairwise (·.1 < ·.1) := by
  unfold flagFields
  refine List.foldlRecOn flags _ List.Pairwise.nil fun fields hfields f _ => ?_
  exact pairwise_insertField _ _ hfields

theorem exists_value_of_mem_flagFields {flags : List Flag} {f : String × Json}
    (h : f ∈ flagFields flags) : ∃ flag ∈ flags, f = (flag.key, flag.value.toJson) := by
  unfold flagFields at h
  induction flags using List.reverseRecOn with
  | nil => cases h
  | append_singleton flags flag ih =>
    rw [List.foldl_append] at h
    rcases mem_insertField h with rfl | hf
    · exact ⟨flag, List.mem_append_right _ List.mem_cons_self, rfl⟩
    · obtain ⟨flag', hflag', heq⟩ := ih hf
      exact ⟨flag', List.mem_append_left _ hflag', heq⟩

/-- The value of the last flag with a key is among the fields. -/
theorem mem_flagFields_of_isLast {s : Scope} {index : Nat} {g : Flag}
    (hlast : s.IsLast (·.key = g.key) index) (hg : s.flags[index]? = some g) :
    (g.key, g.value.toJson) ∈ flagFields s.flags :=
  Json.mem_of_lookup_eq_some (lookup_flagFields hlast hg)

theorem mem_keys_flagFields (s : Scope) (key : String) :
    key ∈ (flagFields s.flags).map (·.1) ↔ ∃ f ∈ s.flags, f.key = key := by
  rw [List.mem_map]
  constructor
  · rintro ⟨f, hf, rfl⟩
    obtain ⟨flag, hflag, rfl⟩ := exists_value_of_mem_flagFields hf
    exact ⟨flag, hflag, rfl⟩
  · rintro ⟨f, hf, rfl⟩
    obtain ⟨index, hindex⟩ := List.getElem?_of_mem hf
    obtain ⟨last, _, hlast⟩ := Scope.exists_isLast (p := (·.key = f.key)) hindex rfl
    obtain ⟨g, hg, hkey⟩ := hlast.1
    rw [← hkey] at hlast ⊢
    exact ⟨_, mem_flagFields_of_isLast hlast hg, rfl⟩

/-! ## What a report shows -/

/-- A JSON value shows a single value of a kind. -/
inductive ShowsItem : (k : Kind) → k.Carrier → Json → Prop
  | bool (b : Bool) : ShowsItem .bool b (.bool b)
  | int {t : IntKind} {v : Number t} {n : Int} (hn : n = v.val) : ShowsItem (.int t) v (.int n)
  | string (text : String) : ShowsItem .string text (.string text)

/-- A JSON value shows what a flag holds. -/
inductive ShowsValue : Value → Json → Prop
  | scalar {k : Kind} {v : k.Carrier} {j : Json} (h : ShowsItem k v j) : ShowsValue (.scalar k v) j
  | list {k : Kind} {items : List k.Carrier} {js : List Json}
      (h : List.Forall₂ (ShowsItem k) items js) : ShowsValue (.list ⟨k, items⟩) (.array js)

/-- Fields show the flags of a scope: one field for each key, in ascending order of the bytes of
the keys, with the value of the last flag that was declared with the key. -/
structure ShowsFlags (s : Scope) (fields : List (String × Json)) : Prop where
  ascending : (fields.map (·.1)).Pairwise (Text.utf8 · < Text.utf8 ·)
  keys : ∀ key, key ∈ fields.map (·.1) ↔ ∃ f ∈ s.flags, f.key = key
  last : ∀ index g, s.IsLast (·.key = g.key) index → s.flags[index]? = some g →
    ∃ j, (g.key, j) ∈ fields ∧ ShowsValue g.value j

/-- Fields show a scope: its positional arguments in order, and its flags. -/
inductive ShowsScope (s : Scope) : List (String × Json) → Prop
  | mk {fields : List (String × Json)} (hflags : ShowsFlags s fields) :
      ShowsScope s [("args", .array (s.positional.values.map .string)), ("flags", .object fields)]

/-- A JSON value shows the selected subcommand by its name and scope, and is null if there is
none. -/
inductive ShowsSubcommand : Option Subcommand → Json → Prop
  | none : ShowsSubcommand none .null
  | some {sub : Subcommand} {fields : List (String × Json)} (hscope : ShowsScope sub.scope fields) :
      ShowsSubcommand (some sub) (.object (("name", .string sub.name) :: fields))

/-- A JSON value shows a registry. -/
inductive Shows (r : Registry) : Json → Prop
  | mk {fields : List (String × Json)} {sub : Json} (hglobal : ShowsScope r.global fields)
      (hsub : ShowsSubcommand r.activeSubcommand sub) :
      Shows r (.object [
        ("program", .string r.programName), ("global", .object fields), ("subcommand", sub)])

theorem showsItem_toJson (k : Kind) (v : k.Carrier) : ShowsItem k v (k.toJson v) := by
  cases k with
  | bool => exact .bool v
  | int t => exact .int rfl
  | string => exact .string v

theorem showsValue_toJson (v : Value) : ShowsValue v v.toJson := by
  cases v with
  | scalar k v => exact .scalar (showsItem_toJson k v)
  | list l =>
    refine .list (List.forall₂_map_right_iff.mpr (List.forall₂_same.mpr fun v _ => ?_))
    exact showsItem_toJson l.kind v

theorem showsFlags_flagFields (s : Scope) : ShowsFlags s (flagFields s.flags) where
  ascending := List.pairwise_map.mpr ((pairwise_flagFields s.flags).imp Text.utf8_lt_utf8)
  keys := mem_keys_flagFields s
  last := fun _ g hlast hg => ⟨_, mem_flagFields_of_isLast hlast hg, showsValue_toJson g.value⟩

theorem showsScope_scopeFields (s : Scope) : ShowsScope s (scopeFields s) :=
  .mk (showsFlags_flagFields s)

theorem shows_ofRegistry (r : Registry) : Shows r (ofRegistry r) := by
  refine .mk (showsScope_scopeFields r.global) ?_
  cases hactive : r.activeSubcommand with
  | none => exact .none
  | some sub => exact .some (showsScope_scopeFields sub.scope)

/-! ## What can be recovered -/

theorem ShowsItem.unique {k : Kind} {v w : k.Carrier} {j : Json} (hv : ShowsItem k v j)
    (hw : ShowsItem k w j) : v = w := by
  cases hv with
  | bool b =>
    cases hw
    rfl
  | @int t v n hn =>
    cases hw with
    | @int _ w _ hm =>
      obtain ⟨n, _, _⟩ := v
      obtain ⟨m, _, _⟩ := w
      obtain rfl : n = m := hn.symm.trans hm
      rfl
  | string text =>
    cases hw
    rfl

/-- No two values of a kind are shown in the same way. -/
theorem ShowsValue.unique {v w : Value} {j : Json} (hv : ShowsValue v j) (hw : ShowsValue w j)
    (hkind : v.kind = w.kind) (hlist : v.isList = w.isList) : v = w := by
  cases hv with
  | @scalar k v _ hitem =>
    cases hw with
    | @scalar k' w _ hitem' =>
      obtain rfl : k = k' := hkind
      rw [hitem.unique hitem']
    | list _ => cases hlist
  | @list k items js hitems =>
    cases hw with
    | scalar _ => cases hlist
    | @list k' items' _ hitems' =>
      obtain rfl : k = k' := hkind
      have hunique : Relator.LeftUnique (ShowsItem k) := fun _ _ _ => ShowsItem.unique
      rw [List.left_unique_forall₂' hunique hitems hitems']

end Report

/-- **Texts of a report.** Both texts of a report are JSON texts of one value, and decode to it.
That value shows the registry: the name of the program, the global scope, and the selected
subcommand. What the flags hold can be recovered from it, since no two values of a kind are shown in
the same way. The raw text is a single line. -/
theorem Registry.report_decodes (r : Registry) :
    (∃ j, Report.Shows r j ∧ ∀ raw, Json.IsText (r.report raw) j ∧
        Json.decode? (r.report raw) = some j) ∧
      (∀ v w j, Report.ShowsValue v j → Report.ShowsValue w j → v.kind = w.kind →
        v.isList = w.isList → v = w) ∧
      '\n' ∉ (r.report true).toList := by
  refine ⟨⟨Report.ofRegistry r, Report.shows_ofRegistry r, fun raw => ?_⟩, ?_, ?_⟩
  · have htext : Json.IsText (r.report raw) (Report.ofRegistry r) := by
      cases raw with
      | true => exact Json.isText_compact _
      | false => exact Json.isText_pretty _
    exact ⟨htext, Json.decode?_eq_some_iff.mpr htext⟩
  · exact fun v w j => Report.ShowsValue.unique
  · exact Json.newLine_not_mem_compact _

end CommandLine

import CommandLine.NameTable
import Mathlib.Data.List.Nodup
import Mathlib.Tactic.Common

/-!
# Tables as lists of names

`NameTable.Holds`: a table holds a list of distinct names if each of its chains is the part of the
numbered list that belongs in the bucket. The number of a name is then its place in the list
(`Holds.find?_eq_some_iff`), and an insertion puts a new name at the end (`Holds.insert?`),
whatever the number of buckets.
-/

namespace CommandLine.NameTable

/-- A table holds names in the order in which they were inserted. -/
structure Holds (t : NameTable) (names : List String) : Prop where
  size_eq : t.size = names.length
  nodup : names.Nodup
  bucket_eq : ∀ b, t.buckets[b]? = if b < t.buckets.size then
    some (names.zipIdx.filter fun entry => bucketOf entry.1 t.buckets.size = b) else none

theorem holds_empty (count : Nat) : (empty count).Holds [] where
  size_eq := rfl
  nodup := List.nodup_nil
  bucket_eq b := by
    unfold empty
    rw [Array.getElem?_replicate, Array.size_replicate]
    rfl

/-! ## Search -/

/-- Entries under other names do not matter to a search. -/
theorem lookup_filter {p : String × Nat → Bool} {name : String} :
    ∀ {entries : List (String × Nat)}, (∀ i, p (name, i) = true) →
      (entries.filter p).lookup name = entries.lookup name := by
  intro entries hp
  induction entries with
  | nil => rfl
  | cons entry entries ih =>
    obtain ⟨key, i⟩ := entry
    by_cases hkey : name = key
    · subst hkey
      rw [List.filter_cons_of_pos (hp i), List.lookup_cons_self, List.lookup_cons_self]
    · have hne : (name == key) = false := beq_false_of_ne hkey
      rw [List.filter_cons]
      split
      · rw [List.lookup_cons, List.lookup_cons, hne, ih]
      · rw [List.lookup_cons, hne, ih]

theorem lookup_zipIdx (name : String) (names : List String) (k : Nat) :
    (names.zipIdx k).lookup name = (names.idxOf? name).map (· + k) := by
  induction names generalizing k with
  | nil => rfl
  | cons first names ih =>
    rw [List.zipIdx_cons, List.idxOf?_cons]
    by_cases hfirst : name = first
    · subst hfirst
      rw [List.lookup_cons_self, beq_self_eq_true, if_pos rfl, Option.map_some, Nat.zero_add]
    · rw [List.lookup_cons, beq_false_of_ne hfirst, beq_false_of_ne (Ne.symm hfirst),
        if_neg Bool.false_ne_true, Option.map_map]
      show (names.zipIdx (k + 1)).lookup name = _
      rw [ih]
      congr 1
      funext i
      simp only [Function.comp]
      omega

variable {t : NameTable} {names : List String}

theorem Holds.chain_eq (h : t.Holds names) (name : String) :
    t.chain name = names.zipIdx.filter fun entry =>
      bucketOf entry.1 t.buckets.size = bucketOf name t.buckets.size := by
  have hlt := t.bucket_lt name
  have hb := h.bucket_eq (t.bucket name)
  rw [if_pos hlt, Array.getElem?_eq_getElem hlt] at hb
  exact Option.some.inj hb

theorem Holds.find?_eq (h : t.Holds names) (name : String) :
    t.find? name = names.idxOf? name := by
  unfold find?
  rw [h.chain_eq, lookup_filter (fun i => decide_eq_true rfl), lookup_zipIdx]
  exact Option.map_id'

/-- The number of a name is its place in the list. -/
theorem Holds.find?_eq_some_iff (h : t.Holds names) {name : String} {i : Nat} :
    t.find? name = some i ↔ names[i]? = some name := by
  rw [h.find?_eq, List.idxOf?_eq_some_iff, List.getElem?_eq_some_iff]
  constructor
  · rintro ⟨hlt, hname, _⟩
    exact ⟨hlt, hname⟩
  · rintro ⟨hlt, hname⟩
    refine ⟨hlt, hname, fun j hj hjname => ?_⟩
    -- an earlier entry of the name would be a second one
    have hij := (h.nodup.getElem_inj_iff).mp (hjname.trans hname.symm)
    omega

theorem Holds.find?_eq_none_iff (h : t.Holds names) {name : String} :
    t.find? name = none ↔ name ∉ names := by
  rw [h.find?_eq, List.idxOf?_eq_none_iff]

/-! ## Insertion -/

/-- A name is refused exactly if it is there. -/
theorem Holds.insert?_eq_none_iff (h : t.Holds names) {name : String} :
    t.insert? name = none ↔ name ∈ names := by
  unfold NameTable.insert?
  split
  · rename_i hsome
    simp only [true_iff]
    by_contra hnot
    rw [h.find?_eq_none_iff.mpr hnot] at hsome
    cases hsome
  · rename_i hsome
    rw [Option.not_isSome_iff_eq_none, h.find?_eq_none_iff] at hsome
    simpa using hsome

/-- A new name gets the next number and goes to the end of the list. -/
theorem Holds.insert? (h : t.Holds names) {name : String} {slot : Nat} {t' : NameTable}
    (hinsert : t.insert? name = some (slot, t')) :
    slot = names.length ∧ t'.Holds (names ++ [name]) := by
  unfold NameTable.insert? at hinsert
  split at hinsert
  · cases hinsert
  · rename_i hfind
    rw [Option.not_isSome_iff_eq_none, h.find?_eq_none_iff] at hfind
    obtain ⟨rfl, rfl⟩ := Prod.mk.inj (Option.some.inj hinsert)
    refine ⟨h.size_eq, ?_, ?_, fun b => ?_⟩
    · rw [List.length_append, ← h.size_eq]
      rfl
    · rw [List.nodup_append]
      refine ⟨h.nodup, List.nodup_singleton name, fun x hx y hy => ?_⟩
      rw [List.mem_singleton.mp hy]
      rintro rfl
      exact hfind hx
    · -- the chain of the name's bucket grows by the new entry, the others stay
      simp only [Array.getElem?_modify, Array.size_modify, h.bucket_eq, List.zipIdx_append,
        List.filter_append, h.size_eq]
      by_cases hb : t.bucket name = b
      · subst hb
        have hlt : bucketOf name t.buckets.size < t.buckets.size := t.bucket_lt name
        simp [bucket, hlt]
      · have hne : ¬ bucketOf name t.buckets.size = b := hb
        simp [hb, hne]

end CommandLine.NameTable

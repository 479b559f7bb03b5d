import CommandLine.Proofs.NameTable

/-!
# Histories of a table of names

A host that inserts, searches, counts and clears cannot tell a table from a plain list of distinct
names, whatever the number of buckets.

1. `NameTable.perform` and `NameList.perform` say what one operation does to a table and to a list,
   and what it answers.
2. A table that holds a list answers as the list does, and then holds the list that the operation
   leaves (`Holds.perform`). So it is with whole histories (`Holds.runAll`).
3. Of the answers of a list only the lengths of chains depend on the number of buckets
   (`NameList.getElem?_answers_eq`).
-/

namespace CommandLine

/-- What can be done with a table of names. -/
inductive NameOperation where
  | insert (name : String)
  | find (name : String)
  | size
  | isEmpty
  | chainLength (name : String)
  | clear
  deriving DecidableEq

/-- What an operation answers. -/
inductive NameAnswer where
  | slot (slot? : Option Nat)
  | number (n : Nat)
  | truth (b : Bool)
  | done
  deriving DecidableEq

/-- Performs operations one by one, and gives the state reached and the answers. -/
def NameOperation.runAll {σ : Type} (perform : σ → NameOperation → σ × NameAnswer) (s : σ) :
    List NameOperation → σ × List NameAnswer
  | [] => (s, [])
  | operation :: rest =>
    let (s', answer) := perform s operation
    let (s'', answers) := runAll perform s' rest
    (s'', answer :: answers)

namespace NameTable

/-- One operation on a table. A name that is refused leaves the table as it is. -/
def perform (t : NameTable) : NameOperation → NameTable × NameAnswer
  | .insert name =>
    match t.insert? name with
    | none => (t, .slot none)
    | some (slot, t') => (t', .slot (some slot))
  | .find name => (t, .slot (t.find? name))
  | .size => (t, .number t.size)
  | .isEmpty => (t, .truth t.isEmpty)
  | .chainLength name => (t, .number (t.chainLength name))
  | .clear => (t.clear, .done)

end NameTable

namespace NameList

open NameOperation (runAll)

/-- One operation on a list of names. A name that is present is refused, a new one goes to the end,
and the number of a name is its place. The length of a chain counts the names of a bucket. -/
def perform (count : Nat) (names : List String) : NameOperation → List String × NameAnswer
  | .insert name =>
    if name ∈ names then (names, .slot none)
    else (names ++ [name], .slot (some names.length))
  | .find name => (names, .slot (names.idxOf? name))
  | .size => (names, .number names.length)
  | .isEmpty => (names, .truth names.isEmpty)
  | .chainLength name =>
    (names, .number (names.countP fun other => bucketOf other count = bucketOf name count))
  | .clear => ([], .done)

/-- The answers to all questions but the lengths of chains are the same for every number of
buckets. -/
theorem getElem?_answers_eq (count count' : Nat) (names : List String)
    {operations : List NameOperation} {i : Nat} {operation : NameOperation}
    (hi : operations[i]? = some operation) (hchain : ∀ name, operation ≠ .chainLength name) :
    (runAll (perform count) names operations).2[i]? =
      (runAll (perform count') names operations).2[i]? := by
  induction operations generalizing names i with
  | nil => cases hi
  | cons first rest ih =>
    -- the list that an operation leaves does not depend on the buckets at all
    have hstate : (perform count names first).1 = (perform count' names first).1 := by
      cases first <;> rfl
    cases i with
    | zero =>
      obtain rfl : first = operation := Option.some.inj hi
      show some (perform count names first).2 = some (perform count' names first).2
      cases first with
      | chainLength name => exact absurd rfl (hchain name)
      | _ => rfl
    | succ i =>
      show (runAll (perform count) (perform count names first).1 rest).2[i]? = _
      rw [hstate]
      exact ih _ hi

end NameList

namespace NameTable

open NameOperation (runAll)

variable {t : NameTable} {names : List String}

/-! ## One operation -/

theorem size_buckets_insert? {name : String} {slot : Nat} {t' : NameTable}
    (h : t.insert? name = some (slot, t')) : t'.buckets.size = t.buckets.size := by
  unfold insert? at h
  split at h
  · cases h
  · obtain ⟨_, rfl⟩ := Prod.mk.inj (Option.some.inj h)
    exact Array.size_modify

/-- No operation changes the number of buckets. -/
theorem size_buckets_perform (t : NameTable) (operation : NameOperation) :
    (t.perform operation).1.buckets.size = t.buckets.size := by
  cases operation with
  | insert name =>
    rcases hinsert : t.insert? name with _ | ⟨slot, t'⟩
    · simp only [perform, hinsert]
    · simp only [perform, hinsert]
      exact size_buckets_insert? hinsert
  | clear =>
    have hpos := t.buckets_pos
    show (Array.replicate (max t.buckets.size 1) []).size = t.buckets.size
    rw [Array.size_replicate]
    omega
  | _ => rfl

/-- A chain has as many entries as there are names of its bucket. -/
theorem Holds.chainLength_eq (h : t.Holds names) (name : String) :
    t.chainLength name = names.countP fun other =>
      bucketOf other t.buckets.size = bucketOf name t.buckets.size := by
  have hnames : names = names.zipIdx.map Prod.fst := (List.zipIdx_map_fst 0 names).symm
  unfold chainLength
  rw [h.chain_eq, ← List.countP_eq_length_filter]
  conv_rhs => rw [hnames, List.countP_map]
  rfl

/-- A table that holds a list of names answers an operation as the list does, and then holds the
names that the operation leaves. -/
theorem Holds.perform (h : t.Holds names) (operation : NameOperation) :
    (t.perform operation).1.Holds (NameList.perform t.buckets.size names operation).1 ∧
      (t.perform operation).2 = (NameList.perform t.buckets.size names operation).2 := by
  cases operation with
  | insert name =>
    rcases hinsert : t.insert? name with _ | ⟨slot, t'⟩
    · have hold : name ∈ names := h.insert?_eq_none_iff.mp hinsert
      simp only [NameTable.perform, NameList.perform, hinsert, if_pos hold]
      exact ⟨h, trivial⟩
    · have hnew : name ∉ names := by
        rw [← h.insert?_eq_none_iff, hinsert]
        simp
      obtain ⟨rfl, h'⟩ := h.insert? hinsert
      simp only [NameTable.perform, NameList.perform, hinsert, if_neg hnew]
      exact ⟨h', trivial⟩
  | find name => exact ⟨h, congrArg NameAnswer.slot (h.find?_eq name)⟩
  | size => exact ⟨h, congrArg NameAnswer.number h.size_eq⟩
  | isEmpty =>
    refine ⟨h, congrArg NameAnswer.truth ?_⟩
    show (t.size == 0) = names.isEmpty
    rw [h.size_eq]
    cases names <;> rfl
  | chainLength name => exact ⟨h, congrArg NameAnswer.number (h.chainLength_eq name)⟩
  | clear => exact ⟨holds_empty _, rfl⟩

/-! ## Histories -/

theorem size_buckets_runAll (t : NameTable) (operations : List NameOperation) :
    (runAll perform t operations).1.buckets.size = t.buckets.size := by
  induction operations generalizing t with
  | nil => rfl
  | cons operation rest ih => exact (ih _).trans (t.size_buckets_perform operation)

theorem Holds.runAll (h : t.Holds names) (operations : List NameOperation) :
    (runAll NameTable.perform t operations).1.Holds
        (runAll (NameList.perform t.buckets.size) names operations).1 ∧
      (runAll NameTable.perform t operations).2 =
        (runAll (NameList.perform t.buckets.size) names operations).2 := by
  induction operations generalizing t names with
  | nil => exact ⟨h, rfl⟩
  | cons operation rest ih =>
    obtain ⟨hstep, hanswer⟩ := h.perform operation
    obtain ⟨hrest, hanswers⟩ := ih hstep
    rw [size_buckets_perform] at hrest hanswers
    exact ⟨hrest, by simp only [NameOperation.runAll, hanswer, hanswers]⟩

theorem size_buckets_empty (count : Nat) : (empty count).buckets.size = max count 1 :=
  Array.size_replicate

/-- **Tables are lists of names.** Whatever is done with a new table of any number of buckets, its
answers are those of a list that starts empty, and it holds the distinct names of that list. All
answers but the lengths of chains are the same for every number of buckets, and a name never
belongs in a bucket that is not there. -/
theorem runAll_empty_eq (count : Nat) (operations : List NameOperation) :
    let table := runAll perform (empty count) operations
    let list := runAll (NameList.perform (max count 1)) [] operations
    table.2 = list.2 ∧ table.1.Holds list.1 ∧ list.1.Nodup ∧
      (∀ name, table.1.bucket name = bucketOf name (max count 1) ∧
        table.1.bucket name < max count 1) ∧
      ∀ (count' i : Nat) (operation : NameOperation), operations[i]? = some operation →
        (∀ name, operation ≠ .chainLength name) →
          (runAll perform (empty count') operations).2[i]? = table.2[i]? := by
  intro table list
  have hrun : ∀ count', (runAll perform (empty count') operations).1.Holds
      (runAll (NameList.perform (max count' 1)) [] operations).1 ∧
      (runAll perform (empty count') operations).2 =
        (runAll (NameList.perform (max count' 1)) [] operations).2 := by
    intro count'
    rw [← size_buckets_empty count']
    exact (holds_empty count').runAll operations
  have hsize : table.1.buckets.size = max count 1 :=
    (size_buckets_runAll _ operations).trans (size_buckets_empty count)
  obtain ⟨hholds, hanswers⟩ := hrun count
  refine ⟨hanswers, hholds, hholds.nodup, fun name => ⟨?_, ?_⟩, ?_⟩
  · unfold bucket
    rw [hsize]
  · have hlt := table.1.bucket_lt name
    rwa [hsize] at hlt
  · intro count' i operation hi hchain
    rw [(hrun count').2, show table.2 = list.2 from hanswers]
    exact NameList.getElem?_answers_eq _ _ [] hi hchain

theorem runAll_empty_eq_sample :
    let operations := [.insert "build", .insert "run", .insert "build", .find "run",
      .chainLength "test", .clear, .insert "run", .isEmpty]
    (runAll perform (empty 0) operations).2 = [.slot (some 0), .slot (some 1), .slot none,
        .slot (some 1), .number 2, .done, .slot (some 0), .truth false] ∧
      (runAll perform (empty 1024) operations).2[3]? = some (.slot (some 1)) := by
  intro operations
  obtain ⟨hanswers, _, _, _, hsame⟩ := runAll_empty_eq 0 operations
  refine ⟨hanswers.trans (by decide +kernel), (hsame 1024 3 (.find "run") rfl (by simp)).trans ?_⟩
  rw [hanswers]
  decide +kernel

end NameTable

end CommandLine

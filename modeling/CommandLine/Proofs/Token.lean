import CommandLine.Token
import Mathlib.Data.List.TakeWhile
import Mathlib.Tactic.Common

/-!
# Shapes and their texts

`classify_eq_iff`: a token has a shape exactly if it is the text of that shape and the shape is a
proper one. So a statement about `Token.classify` can be read as one about how a token is written.

`listRun_append`: a run of tokens that do not look like flags is taken whole, up to a token that
does or to the end of the line.
-/

namespace CommandLine

namespace Token

/-- What the text held by a shape must satisfy for the shape to be read off some token. -/
def IsProper : Token → Prop
  | .separator => True
  | .positional text => startsWithDash text = false
  | .long name => name ≠ ""
  | .short c => c ≠ '-'
  | .cluster text => ∃ c d more, text.toList = '-' :: c :: d :: more ∧ c ≠ '-'
  | .dash => True

/-! ## Reading a shape off a token and writing it back -/

theorem classify_ofList_long {cs : List Char} (h : cs ≠ []) :
    classify (String.ofList ('-' :: '-' :: cs)) = .long (String.ofList cs) := by
  obtain ⟨c, cs, rfl⟩ := List.exists_cons_of_ne_nil h
  unfold classify
  rw [String.toList_ofList]
  rfl

theorem classify_ofList_short {c : Char} (h : c ≠ '-') :
    classify (String.ofList ['-', c]) = .short c := by
  unfold classify
  rw [String.toList_ofList]
  split <;> grind

theorem classify_ofList_cluster {c d : Char} {cs : List Char} (h : c ≠ '-') :
    classify (String.ofList ('-' :: c :: d :: cs)) =
      .cluster (String.ofList ('-' :: c :: d :: cs)) := by
  unfold classify
  rw [String.toList_ofList]
  split <;> grind

theorem classify_positional {token : String} (h : startsWithDash token = false) :
    classify token = .positional token := by
  unfold startsWithDash at h
  unfold classify
  split <;> simp_all

theorem startsWithDash_iff {token : String} :
    startsWithDash token = true ↔ ∃ cs, token = String.ofList ('-' :: cs) := by
  unfold startsWithDash
  constructor
  · intro h
    obtain ⟨cs, hcs⟩ := List.head?_eq_some_iff.mp (beq_iff_eq.mp h)
    exact ⟨cs, by rw [← hcs, String.ofList_toList]⟩
  · rintro ⟨cs, rfl⟩
    rw [String.toList_ofList]
    rfl

theorem text_long (name : String) :
    (Token.long name).text = String.ofList ('-' :: '-' :: name.toList) := by
  rw [← String.toList_inj, String.toList_ofList]
  exact String.toList_append

/-- Every token is the text of its shape, and its shape is proper. -/
theorem classify_spec (token : String) :
    (classify token).IsProper ∧ (classify token).text = token := by
  by_cases hd : startsWithDash token = true
  · obtain ⟨cs, rfl⟩ := startsWithDash_iff.mp hd
    rcases cs with _ | ⟨c, cs⟩
    · exact ⟨trivial, rfl⟩
    -- a second dash makes a separator or a long flag, anything else a short flag or a cluster
    by_cases hc : c = '-'
    · subst hc
      rcases cs with _ | ⟨d, cs⟩
      · exact ⟨trivial, rfl⟩
      · rw [classify_ofList_long (List.cons_ne_nil d cs)]
        refine ⟨fun h => ?_, ?_⟩
        · exact absurd (String.toList_eq_nil_iff.mpr h) (by rw [String.toList_ofList]; simp)
        · rw [text_long, String.toList_ofList]
    · rcases cs with _ | ⟨d, cs⟩
      · rw [classify_ofList_short hc]
        exact ⟨hc, rfl⟩
      · rw [classify_ofList_cluster hc]
        exact ⟨⟨c, d, cs, String.toList_ofList, hc⟩, rfl⟩
  · rw [Bool.not_eq_true] at hd
    rw [classify_positional hd]
    exact ⟨hd, rfl⟩

/-- A proper shape is read off its text. -/
theorem classify_text {shape : Token} (h : shape.IsProper) : classify shape.text = shape := by
  cases shape with
  | separator => rfl
  | positional text => exact classify_positional h
  | long name =>
    have hne : name.toList ≠ [] := fun h' => h (String.toList_eq_nil_iff.mp h')
    rw [text_long, classify_ofList_long hne, String.ofList_toList]
  | short c => exact classify_ofList_short h
  | cluster text =>
    obtain ⟨c, d, more, htext, hc⟩ := h
    have : text = String.ofList ('-' :: c :: d :: more) := by
      rw [← htext, String.ofList_toList]
    subst this
    exact classify_ofList_cluster hc
  | dash => rfl

theorem classify_eq_iff {token : String} {shape : Token} :
    classify token = shape ↔ shape.IsProper ∧ shape.text = token := by
  constructor
  · rintro rfl
    exact classify_spec token
  · rintro ⟨hproper, rfl⟩
    exact classify_text hproper

end Token

/-! ## Runs of a list flag -/

/-- After its dash, only the next character of a token matters. -/
theorem looksLikeFlag_of_toList {numeric : Bool} {token : String} {cs : List Char}
    (h : token.toList = '-' :: cs) :
    looksLikeFlag numeric token = !(numeric && cs.head?.any Char.isDigit) := by
  unfold looksLikeFlag
  rw [h]
  rfl

theorem looksLikeFlag_of_not_startsWithDash {numeric : Bool} {token : String}
    (h : startsWithDash token = false) : looksLikeFlag numeric token = false := by
  unfold startsWithDash at h
  unfold looksLikeFlag
  split
  · rename_i rest htoken
    rw [htoken] at h
    cases h
  · rfl

theorem looksLikeFlag_separator (numeric : Bool) : looksLikeFlag numeric "--" = true := by
  cases numeric <;> rfl

/-- Tokens that do not look like flags are taken, and then the run of the rest. -/
theorem listRun_append_of_forall {numeric : Bool} {run : List String}
    (h : ∀ token ∈ run, looksLikeFlag numeric token = false) (rest : List String) :
    listRun numeric (run ++ rest) = run ++ listRun numeric rest := by
  unfold listRun
  rw [List.takeWhile_append_of_pos]
  intro token htoken
  rw [h token htoken]
  rfl

/-- The tokens of a list flag end where the next token looks like a flag. -/
theorem listRun_append {numeric : Bool} {run rest : List String}
    (hrun : ∀ token ∈ run, looksLikeFlag numeric token = false)
    (hrest : ∀ token ∈ rest.head?, looksLikeFlag numeric token = true) :
    listRun numeric (run ++ rest) = run := by
  rw [listRun_append_of_forall hrun]
  unfold listRun
  cases rest with
  | nil => rw [List.takeWhile_nil, List.append_nil]
  | cons token rest =>
    have hstop := hrest token rfl
    rw [List.takeWhile_cons_of_neg (by rw [hstop]; decide), List.append_nil]

theorem looksLikeFlag_of_mem_listRun {numeric : Bool} {tokens : List String} {token : String}
    (h : token ∈ listRun numeric tokens) : looksLikeFlag numeric token = false := by
  have := List.all_eq_true.mp List.all_takeWhile token h
  simpa using this

/-- What follows the run is empty or starts with a token that looks like a flag. -/
theorem exists_listRun_append (numeric : Bool) (tokens : List String) :
    ∃ rest, tokens = listRun numeric tokens ++ rest ∧
      ∀ token ∈ rest.head?, looksLikeFlag numeric token = true := by
  refine ⟨tokens.dropWhile (!looksLikeFlag numeric ·), ?_, ?_⟩
  · exact List.takeWhile_append_dropWhile.symm
  · intro token h
    have hstop := List.head?_dropWhile_not (!looksLikeFlag numeric ·) tokens
    rw [Option.mem_def.mp h] at hstop
    simpa using hstop

end CommandLine

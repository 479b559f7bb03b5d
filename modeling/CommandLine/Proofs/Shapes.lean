import CommandLine.Proofs.Token
import Mathlib.Order.Bounds.Defs

/-!
# Shapes and the runs of lists

`Token.classify` takes a token apart to find its flag, and `looksLikeFlag` looks at its first
characters to end the run of a list. The two agree on every token: whether a token ends a run can be
said of its shape alone (`Token.endsRun`, `looksLikeFlag_eq_endsRun`).

The run itself is the longest front part of the line without a token that looks like a flag
(`isGreatest_length_listRun`).
-/

namespace CommandLine

namespace Token

/-- Whether a token of this shape ends the run of a list flag. Only a positional token never does;
among numbers, one dash before a digit does not either. -/
def endsRun (numeric : Bool) : Token → Bool
  | .positional _ => false
  | .short c => !(numeric && c.isDigit)
  | .cluster text => !(numeric && text.toList[1]?.any Char.isDigit)
  | .separator | .long _ | .dash => true

theorem endsRun_false_iff {shape : Token} :
    shape.endsRun false = true ↔ ∀ text, shape ≠ .positional text := by
  cases shape <;> simp [endsRun]

theorem endsRun_true_iff {shape : Token} :
    shape.endsRun true = true ↔
      (∀ text, shape ≠ .positional text) ∧
      (¬ ∃ c, shape = .short c ∧ c.isDigit = true) ∧
      ¬ ∃ text c, shape = .cluster text ∧ text.toList[1]? = some c ∧ c.isDigit = true := by
  cases shape with
  | cluster text =>
    cases hc : text.toList[1]? with
    | none => simp [endsRun, hc]
    | some c => simp [endsRun, hc]
  | _ => simp [endsRun]

end Token

/-! ## The test on the token and the test on its shape -/

theorem looksLikeFlag_text {numeric : Bool} {shape : Token} (h : shape.IsProper) :
    looksLikeFlag numeric shape.text = shape.endsRun numeric := by
  cases shape with
  | separator => exact looksLikeFlag_separator numeric
  | positional text => exact looksLikeFlag_of_not_startsWithDash h
  | long name =>
    -- the second dash is no digit
    rw [Token.text_long, looksLikeFlag_of_toList String.toList_ofList]
    cases numeric <;> rfl
  | short c => exact looksLikeFlag_of_toList String.toList_ofList
  | cluster text =>
    obtain ⟨c, d, more, htext, _⟩ := h
    show looksLikeFlag numeric text = !(numeric && text.toList[1]?.any Char.isDigit)
    rw [looksLikeFlag_of_toList htext, htext]
    rfl
  | dash => cases numeric <;> rfl

theorem looksLikeFlag_eq_endsRun (numeric : Bool) (token : String) :
    looksLikeFlag numeric token = (Token.classify token).endsRun numeric := by
  obtain ⟨hproper, htext⟩ := Token.classify_spec token
  rw [← looksLikeFlag_text hproper, htext]

/-! ## The longest run -/

theorem isGreatest_length_listRun (numeric : Bool) (tokens : List String) :
    IsGreatest {n | ∃ run, run <+: tokens ∧
        (∀ token ∈ run, looksLikeFlag numeric token = false) ∧ run.length = n}
      (listRun numeric tokens).length := by
  constructor
  · exact ⟨_, List.takeWhile_prefix _, fun _ => looksLikeFlag_of_mem_listRun, rfl⟩
  · rintro n ⟨run, ⟨rest, rfl⟩, hrun, rfl⟩
    rw [listRun_append_of_forall hrun, List.length_append]
    exact Nat.le_add_right _ _

/-- A shape gives its token back; a long name is not empty, and a cluster has two characters or more
after its dash. The test for flags is one on shapes, and a run is the longest that it allows. -/
theorem Token.classify_faithful (token : String) :
    (classify token).text = token ∧
    (∀ name, classify token = .long name → name ≠ "") ∧
    (∀ text, classify token = .cluster text →
      ∃ c d more, text.toList = '-' :: c :: d :: more ∧ c ≠ '-') ∧
    (looksLikeFlag false token = true ↔ ∀ text, classify token ≠ .positional text) ∧
    (looksLikeFlag true token = true ↔
      (∀ text, classify token ≠ .positional text) ∧
      (¬ ∃ c, classify token = .short c ∧ c.isDigit = true) ∧
      ¬ ∃ text c, classify token = .cluster text ∧ text.toList[1]? = some c ∧
        c.isDigit = true) ∧
    ∀ (numeric : Bool) (tokens : List String),
      IsGreatest {n | ∃ run, run <+: tokens ∧
          (∀ t ∈ run, looksLikeFlag numeric t = false) ∧ run.length = n}
        (listRun numeric tokens).length := by
  refine ⟨(classify_spec token).2, fun name h => ?_, fun text h => ?_, ?_, ?_,
    isGreatest_length_listRun⟩
  · exact (classify_eq_iff.mp h).1
  · exact (classify_eq_iff.mp h).1
  · rw [looksLikeFlag_eq_endsRun, endsRun_false_iff]
  · rw [looksLikeFlag_eq_endsRun, endsRun_true_iff]

end CommandLine

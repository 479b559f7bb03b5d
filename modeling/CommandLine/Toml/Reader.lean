/-!
# Readers of text

A reader takes a value off the front of a text, or refuses. Its type says that what it leaves is
never longer than what it was given, so a reader can be repeated until it stops taking anything.
Alternatives start over at the same place.
-/

namespace CommandLine.Toml

/-- What is left of a text. -/
abbrev Rest (s : List Char) := { r : List Char // r.length ≤ s.length }

/-- Takes a value off the front of a text, or refuses. -/
def Reader (α : Type) := (s : List Char) → Option (α × Rest s)

namespace Reader

variable {α β : Type}

/-- Takes nothing. -/
def done (a : α) : Reader α := fun s => some (a, ⟨s, Nat.le_refl _⟩)

/-- Refuses every text. -/
def refuse : Reader α := fun _ => none

/-- One reader, and then another that may depend on what the first one read. -/
def andThen (p : Reader α) (f : α → Reader β) : Reader β := fun s =>
  match p s with
  | none => none
  | some (a, r) =>
    match f a r.1 with
    | none => none
    | some (b, t) => some (b, ⟨t.1, Nat.le_trans t.2 r.2⟩)

/-- One reader, or another where it refuses. -/
def orElse (p : Reader α) (q : Unit → Reader α) : Reader α := fun s =>
  match p s with
  | some result => some result
  | none => q () s

instance : Monad Reader where
  pure := done
  bind := andThen

instance : Alternative Reader where
  failure := refuse
  orElse := orElse

/-- A value that may not be there. -/
def ofOption : Option α → Reader α
  | some a => done a
  | none => refuse

/-- One character of a class. -/
def satisfy (p : Char → Bool) : Reader Char
  | [] => none
  | c :: cs => if p c then some (c, ⟨cs, Nat.le_succ _⟩) else none

/-- A given character. -/
def char (c : Char) : Reader Unit := do
  let _ ← satisfy (· == c)

/-- A given text. -/
def exactly : List Char → Reader Unit
  | [] => done ()
  | c :: cs => do char c; exactly cs

/-- The longest run of characters of a class, which may be empty. -/
def run (p : Char → Bool) : Reader (List Char) := fun s =>
  some (s.takeWhile p, ⟨s.dropWhile p, (List.dropWhile_suffix p).length_le⟩)

/-- The longest run of characters of a class, with at least one. -/
def run1 (p : Char → Bool) : Reader (List Char) := do
  let cs ← run p
  if cs.isEmpty then refuse else return cs

/-- Repeats a reader until it refuses or takes nothing. -/
def repeated (p : Reader α) (s : List Char) : List α × Rest s :=
  match p s with
  | none => ([], ⟨s, Nat.le_refl _⟩)
  | some (a, ⟨r, hr⟩) =>
    if _h : r.length < s.length then
      let (as, ⟨t, ht⟩) := repeated p r
      (a :: as, ⟨t, Nat.le_trans ht hr⟩)
    else ([a], ⟨r, hr⟩)
termination_by s.length

/-- As many values as a reader finds one after the other. -/
def many (p : Reader α) : Reader (List α) := fun s => some (repeated p s)

/-- A value, or nothing where the reader refuses. -/
def option (p : Reader α) : Reader (Option α) := fun s =>
  match p s with
  | some (a, r) => some (some a, r)
  | none => some (none, ⟨s, Nat.le_refl _⟩)

/-- Any number of values with a separator between each two. -/
def separated (p : Reader α) (separator : Reader Unit) : Reader (List α) := do
  match ← option p with
  | none => return []
  | some first => return first :: (← many (do separator; p))

/-- The end of the text. -/
def atEnd : Reader Unit
  | [] => some ((), ⟨[], Nat.le_refl _⟩)
  | _ :: _ => none

/-- The value of a text that a reader takes as a whole. -/
def whole? (p : Reader α) (text : String) : Option α :=
  ((do let a ← p; atEnd; return a : Reader α) text.toList).map (·.1)

end Reader

end CommandLine.Toml

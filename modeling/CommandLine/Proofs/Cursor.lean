import CommandLine.Proofs.Appending
import CommandLine.Proofs.Boundaries

/-!
# Reading by position

A reader of a command line can be seen as a machine that keeps the whole line and a position on it.
Each step looks at the token under the cursor and moves on by what it has read. Values are cut out
of the line by their positions, and a cut beyond the end of the line is a fault of its own. A list
grows in place, and is cut back if a token does not convert.

1. Where the cursor is in range, a step does what `Scope.step` does with the tokens from there on
   (`LineReader.step_eq`).
2. So a step stays in range, makes no cut beyond the end, and moves on if it asks for another step
   (`LineReader.step_cases`).
3. Hence the steps end (`LineReader.exists_steps`), after no more of them than the line has tokens
   and one (`LineReader.Steps.in_range`), and they come to what a run of the registry comes to
   (`Registry.run_by_position`).
-/

namespace CommandLine

/-- The part of a line between two positions, if both are in range. -/
def slice? (line : List String) (start stop : Nat) : Option (List String) :=
  if start ≤ stop ∧ stop ≤ line.length then some ((line.drop start).take (stop - start)) else none

theorem slice?_to_end {line : List String} {start : Nat} (h : start ≤ line.length) :
    slice? line start line.length = some (line.drop start) := by
  unfold slice?
  rw [if_pos ⟨h, Nat.le_refl _⟩, List.take_of_length_le (by rw [List.length_drop])]

/-- The tokens up to the first one that looks like a flag are the run of a list. -/
theorem listRun_eq_take (numeric : Bool) (tokens : List String) :
    listRun numeric tokens = tokens.take (tokens.findIdx (looksLikeFlag numeric)) := by
  unfold listRun
  rw [List.takeWhile_eq_take_findIdx_not]
  simp only [Bool.not_not]

theorem slice?_run (numeric : Bool) (tokens : List String) :
    slice? tokens 0 (tokens.findIdx (looksLikeFlag numeric)) = some (listRun numeric tokens) := by
  unfold slice?
  rw [if_pos ⟨Nat.zero_le _, List.findIdx_le_length⟩, List.drop_zero, Nat.sub_zero, listRun_eq_take]

theorem length_listRun (numeric : Bool) (tokens : List String) :
    (listRun numeric tokens).length = tokens.findIdx (looksLikeFlag numeric) := by
  rw [listRun_eq_take, List.length_take_of_le List.findIdx_le_length]

/-- An item ends within the line. -/
theorem Scope.used_le_length {limit : Nat} {s s' : Scope} {token : String} {rest : List String}
    {used : Nat} (h : s.step limit token rest = .ok (s', used)) : used ≤ rest.length := by
  rcases fits_or_failsAt limit s token rest with
    ⟨item, more, rest', htokens, rfl, hfits, hroom⟩ | ⟨e, hfails⟩
  · rw [step_of_fits hfits hroom htokens] at h
    obtain ⟨_, rfl⟩ := Prod.mk.inj (Except.ok.inj h)
    rw [List.length_append]
    omega
  · rw [step_of_failsAt hfails] at h
    cases h

theorem Scope.setValue_self {s : Scope} {index : Nat} {f : Flag} (hf : s.flags[index]? = some f) :
    s.setValue index f.value = s := by
  have hflags : s.flags.modify index ({ · with value := f.value }) = s.flags := by
    apply List.ext_getElem?
    intro j
    rw [List.getElem?_modify]
    by_cases h : index = j
    · subst h
      simp [hf]
    · simp [h]
  unfold setValue
  rw [hflags]

namespace Registry

theorem feed_nil {r : Registry} {id : ScopeId} {s : Scope} (hs : r.scope id = .ok s) :
    r.feed id [] = (r, .ok ()) := by
  rw [feed_eq hs, Scope.feed_nil, setScope_self hs]

section Feed

variable {r : Registry} {id : ScopeId} {s : Scope} {token : String} {rest : List String}

/-- Once an item is read, the registry goes on behind it. -/
theorem feed_of_step_eq_ok (hs : r.scope id = .ok s) {s' : Scope} {used : Nat}
    (hstep : s.step r.config.maxPositionals token rest = .ok (s', used)) :
    r.feed id (token :: rest) = (r.setScope s' id).feed id (rest.drop used) := by
  have hs' : (r.setScope s' id).scope id = .ok s' := by rw [scope_setScope hs, if_pos rfl]
  rw [feed_eq hs, feed_eq hs', Scope.feed, hstep, setScope_setScope, config_setScope]

theorem feed_of_step_eq_error (hs : r.scope id = .ok s) {e : Error}
    (hstep : s.step r.config.maxPositionals token rest = .error e) :
    r.feed id (token :: rest) = (r, .error e) := by
  rw [feed_eq hs, Scope.feed, hstep, setScope_self hs]

end Feed

end Registry

/-- A registry that reads a command line, and the position that it has reached. -/
structure LineReader where
  registry : Registry
  cursor : Nat

/-- How a step ends. -/
inductive Signal where
  /-- An item was read, and another step is asked for. -/
  | more
  /-- The line has ended. -/
  | done
  /-- The item under the cursor is refused. -/
  | failed (e : Error)
  /-- A part of the line was asked for that is out of range. -/
  | outOfRange

/-- What a line comes to if its last step ends so. -/
def Signal.result? : Signal → Option (Except Error Unit)
  | .done => some (.ok ())
  | .failed e => some (.error e)
  | .more | .outOfRange => none

namespace LineReader

/-- Moves the cursor. -/
def advance (d : LineReader) (count : Nat) : LineReader := { d with cursor := d.cursor + count }

/-- Replaces a scope. -/
def setScope (d : LineReader) (s : Scope) (id : ScopeId) : LineReader :=
  { d with registry := d.registry.setScope s id }

/-- Reads the value of the flag at an index from the cursor on. -/
def consume (args : List String) (id : ScopeId) (index : Nat) (d : LineReader) :
    LineReader × Signal :=
  match slice? args d.cursor args.length with
  | none => (d, .outOfRange)
  | some rest =>
    match d.registry.scope id with
    | .error e => (d, .failed e)
    | .ok s =>
      match s.flags[index]? with
      | none => (d, .failed (.internal s!"flag index {index}"))
      | some flag =>
        match flag.value with
        | .scalar .bool _ => (d.setScope (s.setValue index (.scalar .bool true)) id, .more)
        | .scalar k _ =>
          match rest.head? with
          | none => (d, .failed (.missingValue flag.displayName))
          | some token =>
            match k.read? token with
            | none => (d, .failed (.invalidNumber token))
            | some v => ((d.setScope (s.setValue index (.scalar k v)) id).advance 1, .more)
        | .list l =>
          let run := rest.findIdx (looksLikeFlag l.kind.isNumeric)
          match slice? rest 0 run with
          | none => (d, .outOfRange)
          | some tokens =>
            let (l', outcome) := l.extend tokens
            let d' := d.setScope (s.setValue index (.list l')) id
            match outcome with
            | .error token => (d', .failed (.invalidNumber token))
            | .ok () => (d'.advance run, .more)

/-- Reads a flag that is named by the token under the cursor, if a search in the scope finds it. -/
def consumeFound (args : List String) (id : ScopeId) (token : String)
    (find : Scope → Option Nat) (d : LineReader) : LineReader × Signal :=
  match d.registry.scope id with
  | .error e => (d, .failed e)
  | .ok s =>
    match find s with
    | none => (d, .failed (.unknownFlag token))
    | some index => (d.advance 1).consume args id index

/-- Reads the item under the cursor. -/
def step (args : List String) (id : ScopeId) (d : LineReader) : LineReader × Signal :=
  match args[d.cursor]? with
  | none => (d, .done)
  | some token =>
    match Token.classify token with
    | .separator => (d.advance 1, .more)
    | .positional text =>
      match d.registry.scope id with
      | .error e => (d, .failed e)
      | .ok s =>
        match s.addPositional text d.registry.config.maxPositionals with
        | .error e => (d, .failed e)
        | .ok s' => ((d.setScope s' id).advance 1, .more)
    | .long name => d.consumeFound args id token (·.findLong name)
    | .short c => d.consumeFound args id token (·.findShort c)
    | .cluster text => (d, .failed (.cluster text))
    | .dash => (d, .failed (.unknownFlag token))

/-- The reader after an item was read in a scope with some tokens behind it, or was refused. -/
def finish (d : LineReader) (id : ScopeId) : Except Error (Scope × Nat) → LineReader × Signal
  | .error e => (d, .failed e)
  | .ok (s, used) => ((d.setScope s id).advance used, .more)

/-! ## One step -/

section Step

variable {args : List String} {id : ScopeId} {d : LineReader}

/-- In range, a value is read as the scope reads it off the tokens from the cursor on. -/
theorem consume_eq (hd : d.cursor ≤ args.length) {s : Scope} (hs : d.registry.scope id = .ok s)
    (index : Nat) :
    d.consume args id index = d.finish id (s.consumeAt index (args.drop d.cursor)) := by
  unfold consume Scope.consumeAt
  rw [slice?_to_end hd]
  simp only [hs]
  rcases hf : s.flags[index]? with _ | f
  · rfl
  · simp only [Flag.consume]
    rcases hvalue : f.value with ⟨k, v⟩ | l
    · cases k with
      | bool => rfl
      | string =>
        rcases args.drop d.cursor with _ | ⟨token, rest⟩
        · rfl
        · rfl
      | int t =>
        rcases args.drop d.cursor with _ | ⟨token, rest⟩
        · rfl
        · simp only [List.head?_cons]
          rcases Kind.read? (.int t) token with _ | n
          · rfl
          · rfl
    · simp only [slice?_run]
      rcases happend : l.append (listRun l.kind.isNumeric (args.drop d.cursor)) with token | l'
      · -- the list is cut back to what it was, and so are the scope and the registry
        have hself : s.setValue index (.list l) = s := by rw [← hvalue, Scope.setValue_self hf]
        simp only [ValueList.extend_of_append_eq_error happend, hself, setScope,
          Registry.setScope_self hs]
        rfl
      · simp only [ValueList.extend_of_append_eq_ok happend, length_listRun]
        rfl

theorem consumeFound_eq (hd : d.cursor < args.length) {s : Scope}
    (hs : d.registry.scope id = .ok s) (token : String) {find : Scope → Option Nat} {index : Nat}
    (hfind : find s = some index) :
    d.consumeFound args id token find =
      (d.advance 1).finish id (s.consumeAt index (args.drop (d.cursor + 1))) := by
  unfold consumeFound
  simp only [hs, hfind]
  exact (d.advance 1).consume_eq hd hs index

theorem consumeFound_of_none {s : Scope} (hs : d.registry.scope id = .ok s) (token : String)
    {find : Scope → Option Nat} (hfind : find s = none) :
    d.consumeFound args id token find = (d, .failed (.unknownFlag token)) := by
  unfold consumeFound
  simp only [hs, hfind]

/-- In range, a step does what the scope does with the token under the cursor and those behind it.
A token at which no item starts leaves the cursor where it is. -/
theorem step_eq {token : String} (htoken : args[d.cursor]? = some token) {s : Scope}
    (hs : d.registry.scope id = .ok s) {outcome : Except Error (Scope × Nat)}
    (hstep : s.step d.registry.config.maxPositionals token (args.drop (d.cursor + 1)) = outcome) :
    d.step args id = (d.advance 1).finish id outcome ∨
      ∃ e, outcome = .error e ∧ d.step args id = (d, .failed e) := by
  have hlt : d.cursor < args.length := (List.getElem?_eq_some_iff.mp htoken).1
  unfold step
  simp only [htoken]
  cases hshape : Token.classify token with
  | separator =>
    simp only [Scope.step, hshape] at hstep
    left
    rw [← hstep]
    simp only [finish, setScope, advance, Nat.add_zero, Registry.setScope_self hs]
  | positional text =>
    rcases hadd : s.addPositional text d.registry.config.maxPositionals with e | s'
    · simp only [Scope.step, hshape, hadd] at hstep
      simp only [hs, hadd]
      exact .inr ⟨e, hstep.symm, rfl⟩
    · simp only [Scope.step, hshape, hadd] at hstep
      simp only [hs, hadd, ← hstep]
      exact .inl rfl
  | long name =>
    rcases hfind : s.findLong name with _ | index
    · simp only [Scope.step, hshape, hfind] at hstep
      exact .inr ⟨_, hstep.symm, consumeFound_of_none hs token hfind⟩
    · simp only [Scope.step, hshape, hfind] at hstep
      rw [← hstep]
      exact .inl (consumeFound_eq hlt hs token hfind)
  | short c =>
    rcases hfind : s.findShort c with _ | index
    · simp only [Scope.step, hshape, hfind] at hstep
      exact .inr ⟨_, hstep.symm, consumeFound_of_none hs token hfind⟩
    · simp only [Scope.step, hshape, hfind] at hstep
      rw [← hstep]
      exact .inl (consumeFound_eq hlt hs token hfind)
  | cluster text =>
    simp only [Scope.step, hshape] at hstep
    exact .inr ⟨_, hstep.symm, rfl⟩
  | dash =>
    simp only [Scope.step, hshape] at hstep
    exact .inr ⟨_, hstep.symm, rfl⟩

/-- Without the scope that is to be read, a step skips separators at most. -/
theorem step_of_missing {e : Error} (hs : d.registry.scope id = .error e) {token : String}
    (htoken : args[d.cursor]? = some token) :
    d.step args id = (d.advance 1, .more) ∨ ∃ e', d.step args id = (d, .failed e') := by
  unfold step
  simp only [htoken, consumeFound, hs]
  rcases Token.classify token with _ | text | name | c | text | _
  · exact .inl rfl
  all_goals exact .inr ⟨_, rfl⟩

theorem step_at_end (hd : d.cursor = args.length) : d.step args id = (d, .done) := by
  unfold step
  rw [List.getElem?_eq_none (by omega)]

/-- What a step in range can do: end at the end of the line, move on to a position behind the
cursor, or fail without a change of the registry. It stays in range, and so does all that it cuts
out of the line. -/
theorem step_cases (hd : d.cursor ≤ args.length) (id : ScopeId) :
    (d.cursor = args.length ∧ d.step args id = (d, .done)) ∨
      (∃ r c, d.step args id = (⟨r, c⟩, .more) ∧ d.cursor < c ∧ c ≤ args.length) ∨
      ∃ c e, d.step args id = (⟨d.registry, c⟩, .failed e) ∧ d.cursor ≤ c ∧ c ≤ args.length := by
  by_cases hend : d.cursor = args.length
  · exact .inl ⟨hend, step_at_end hend⟩
  · right
    have hlt : d.cursor < args.length := by omega
    have htoken : args[d.cursor]? = some args[d.cursor] := List.getElem?_eq_getElem hlt
    rcases hs : d.registry.scope id with e | s
    · rcases step_of_missing hs htoken with hstep | ⟨e', hstep⟩
      · exact .inl ⟨_, _, hstep, by omega, hlt⟩
      · exact .inr ⟨_, _, hstep, Nat.le_refl _, hd⟩
    · rcases hstep : s.step d.registry.config.maxPositionals args[d.cursor]
        (args.drop (d.cursor + 1)) with e | ⟨s', used⟩
      · rcases step_eq htoken hs hstep with heq | ⟨e', _, heq⟩
        · exact .inr ⟨_, _, heq, by omega, hlt⟩
        · exact .inr ⟨_, _, heq, Nat.le_refl _, hd⟩
      · rcases step_eq htoken hs hstep with heq | ⟨e', he, _⟩
        · have hused := Scope.used_le_length hstep
          rw [List.length_drop] at hused
          exact .inl ⟨_, d.cursor + 1 + used, heq, by omega, by omega⟩
        · cases he

theorem lt_of_step_more (hd : d.cursor ≤ args.length) {d' : LineReader}
    (hstep : d.step args id = (d', .more)) : d.cursor < d'.cursor ∧ d'.cursor ≤ args.length := by
  rcases step_cases hd id with ⟨_, heq⟩ | ⟨r, c, heq, hlt, hle⟩ | ⟨c, e, heq, _, _⟩
  · cases hstep.symm.trans heq
  · cases hstep.symm.trans heq
    exact ⟨hlt, hle⟩
  · cases hstep.symm.trans heq

/-- A step in a scope is a step of the registry through the tokens from the cursor on. -/
theorem step_feed (hd : d.cursor ≤ args.length) {s : Scope} (hs : d.registry.scope id = .ok s) :
    (d.step args id = (d, .done) ∧
        d.registry.feed id (args.drop d.cursor) = (d.registry, .ok ())) ∨
      (∃ d' s', d.step args id = (d', .more) ∧ d'.registry.scope id = .ok s' ∧
        d.registry.feed id (args.drop d.cursor) =
          d'.registry.feed id (args.drop d'.cursor)) ∨
      ∃ c e, d.step args id = (⟨d.registry, c⟩, .failed e) ∧
        d.registry.feed id (args.drop d.cursor) = (d.registry, .error e) := by
  by_cases hend : d.cursor = args.length
  · rw [List.drop_of_length_le (by omega)]
    exact .inl ⟨step_at_end hend, Registry.feed_nil hs⟩
  · right
    have hlt : d.cursor < args.length := by omega
    have htoken : args[d.cursor]? = some args[d.cursor] := List.getElem?_eq_getElem hlt
    rw [List.drop_eq_getElem_cons hlt]
    rcases hstep : s.step d.registry.config.maxPositionals args[d.cursor]
      (args.drop (d.cursor + 1)) with e | ⟨s', used⟩
    · right
      rw [Registry.feed_of_step_eq_error hs hstep]
      rcases step_eq htoken hs hstep with heq | ⟨e', he, heq⟩
      · exact ⟨_, e, heq, rfl⟩
      · obtain rfl := Except.error.inj he
        exact ⟨_, e, heq, rfl⟩
    · left
      rw [Registry.feed_of_step_eq_ok hs hstep, List.drop_drop]
      rcases step_eq htoken hs hstep with heq | ⟨e', he, _⟩
      · refine ⟨_, s', heq, ?_, rfl⟩
        show (d.registry.setScope s' id).scope id = .ok s'
        rw [Registry.scope_setScope hs, if_pos rfl]
      · cases he

end Step

/-! ## All steps -/

/-- The readers at which steps are made, one after another until a step does not ask for another
one, and the reader and the signal that the last step leaves. -/
inductive Steps (args : List String) (id : ScopeId) :
    LineReader → List LineReader → LineReader → Signal → Prop
  | last {d d' : LineReader} {signal : Signal} (hstep : d.step args id = (d', signal))
      (hend : signal ≠ .more) : Steps args id d [d] d' signal
  | more {d d' d'' : LineReader} {calls : List LineReader} {signal : Signal}
      (hstep : d.step args id = (d', .more)) (hsteps : Steps args id d' calls d'' signal) :
      Steps args id d (d :: calls) d'' signal

section Steps

variable {args : List String} {id : ScopeId} {d d' : LineReader} {calls : List LineReader}
  {signal : Signal}

/-- From a cursor in range the steps end. -/
theorem exists_steps (hd : d.cursor ≤ args.length) (id : ScopeId) :
    ∃ calls d' signal, Steps args id d calls d' signal := by
  induction hrest : args.length - d.cursor using Nat.strong_induction_on generalizing d with
  | _ rest ih =>
    rcases step_cases hd id with ⟨_, hstep⟩ | ⟨r, c, hstep, hlt, hle⟩ | ⟨c, e, hstep, _, _⟩
    · exact ⟨_, _, _, .last hstep (by simp)⟩
    · obtain ⟨calls, d', signal, hsteps⟩ :=
        ih (args.length - c) (by omega) (d := ⟨r, c⟩) hle rfl
      exact ⟨_, _, _, .more hstep hsteps⟩
    · exact ⟨_, _, _, .last hstep (by simp)⟩

/-- All steps are made in range, each at a position behind the one before, and none of them cuts
beyond the end of the line. -/
theorem Steps.in_range (h : Steps args id d calls d' signal) (hd : d.cursor ≤ args.length) :
    calls.Pairwise (·.cursor < ·.cursor) ∧
      (∀ c ∈ calls, d.cursor ≤ c.cursor ∧ c.cursor ≤ args.length) ∧
      d.cursor + calls.length ≤ args.length + 1 ∧ d'.cursor ≤ args.length ∧
      signal ≠ .outOfRange := by
  induction h with
  | @last d d' signal hstep hend =>
    have hd' : d'.cursor ≤ args.length ∧ signal ≠ .outOfRange := by
      rcases step_cases hd id with ⟨_, heq⟩ | ⟨r, c, heq, _, hle⟩ | ⟨c, e, heq, _, hle⟩
      · cases hstep.symm.trans heq
        exact ⟨hd, by simp⟩
      · cases hstep.symm.trans heq
        exact ⟨hle, by simp⟩
      · cases hstep.symm.trans heq
        exact ⟨hle, by simp⟩
    refine ⟨List.pairwise_singleton _ _, ?_, ?_, hd'⟩
    · intro c hc
      rw [List.mem_singleton.mp hc]
      exact ⟨Nat.le_refl _, hd⟩
    · rw [List.length_singleton]
      omega
  | @more d d' d'' calls signal hstep hsteps ih =>
    have hmore := lt_of_step_more hd hstep
    obtain ⟨hsorted, hrange, hlength, hend⟩ := ih hmore.2
    refine ⟨List.pairwise_cons.mpr ⟨fun c hc => ?_, hsorted⟩, ?_, ?_, hend⟩
    · have := hrange c hc
      omega
    · intro c hc
      rcases List.mem_cons.mp hc with rfl | hc
      · exact ⟨Nat.le_refl _, hd⟩
      · have := hrange c hc
        omega
    · rw [List.length_cons]
      omega

/-- The steps in a scope come to what the registry makes of the tokens from the cursor on. -/
theorem Steps.feed_eq (h : Steps args id d calls d' signal) (hd : d.cursor ≤ args.length)
    {s : Scope} (hs : d.registry.scope id = .ok s) :
    (d.registry.feed id (args.drop d.cursor)).1 = d'.registry ∧
      signal.result? = some (d.registry.feed id (args.drop d.cursor)).2 := by
  induction h generalizing s with
  | @last d d' signal hstep hend =>
    rcases step_feed hd hs with ⟨heq, hfeed⟩ | ⟨_, _, heq, _, _⟩ | ⟨c, e, heq, hfeed⟩
    · cases hstep.symm.trans heq
      rw [hfeed]
      exact ⟨rfl, rfl⟩
    · cases hstep.symm.trans heq
      exact absurd rfl hend
    · cases hstep.symm.trans heq
      rw [hfeed]
      exact ⟨rfl, rfl⟩
  | @more d d' d'' calls signal hstep hsteps ih =>
    rcases step_feed hd hs with ⟨heq, _⟩ | ⟨_, s', heq, hs', hfeed⟩ | ⟨c, e, heq, _⟩
    · cases hstep.symm.trans heq
    · cases hstep.symm.trans heq
      rw [hfeed]
      exact ih (lt_of_step_more hd hstep).2 hs'
    · cases hstep.symm.trans heq

end Steps

end LineReader

/-! ## A whole line -/

/-- The position of the first token that remains for a scope. -/
def ScopeId.firstToken : ScopeId → Nat
  | .global => 0
  | .subcommand _ => 1

/-- The reader of a line once its scope is selected; the name of a subcommand is then read. -/
def LineReader.start (r : Registry) (args : List String) : Except Error (ScopeId × LineReader) :=
  (r.select args).map fun (selected, id, _) => (id, ⟨selected, id.firstToken⟩)

namespace Registry

/-- What remains for a scope are the tokens from its position on, and the scope is there. -/
theorem select_eq_ok_drop {r selected : Registry} {args tokens : List String} {id : ScopeId}
    (h : r.select args = .ok (selected, id, tokens)) :
    tokens = args.drop id.firstToken ∧ id.firstToken ≤ args.length ∧
      ∃ s, selected.scope id = .ok s := by
  rcases select_eq_ok h with ⟨rfl, rfl, rfl⟩ | ⟨first, slot, rfl, _, _, _, hlt, rfl, rfl⟩
  · exact ⟨rfl, Nat.zero_le _, selected.global, rfl⟩
  · refine ⟨rfl, Nat.succ_le_succ (Nat.zero_le _), ?_⟩
    rw [scope_activate]
    exact ⟨_, scope_subcommand_eq_ok_iff.mpr ⟨_, List.getElem?_eq_getElem hlt, rfl⟩⟩

/-- **Positions.** A step in range stays in range, cuts nothing beyond the end of the line, and
moves the cursor on if it asks for another step. So reading a line ends: once its scope is selected,
it takes one step more than there are tokens at most, all of them in range, and comes to what a run
of the registry comes to. -/
theorem run_by_position (r : Registry) (args : List String) :
    (∀ (id : ScopeId) (d : LineReader), d.cursor ≤ args.length →
        (d.step args id).1.cursor ≤ args.length ∧ (d.step args id).2 ≠ .outOfRange ∧
          ((d.step args id).2 = .more → d.cursor < (d.step args id).1.cursor)) ∧
      ((∃ e, LineReader.start r args = .error e ∧ r.run args = (r, .error e)) ∨
        ∃ id d calls d' signal, LineReader.start r args = .ok (id, d) ∧
          LineReader.Steps args id d calls d' signal ∧ calls.length ≤ args.length + 1 ∧
          (∀ c ∈ calls, c.cursor ≤ args.length) ∧ calls.Pairwise (·.cursor < ·.cursor) ∧
          d'.cursor ≤ args.length ∧ d'.registry = (r.run args).1 ∧
          signal.result? = some (r.run args).2) := by
  refine ⟨fun id d hd => ?_, ?_⟩
  · rcases d.step_cases hd id with ⟨_, hstep⟩ | ⟨q, c, hstep, hlt, hle⟩ | ⟨c, e, hstep, _, hle⟩
    · rw [hstep]
      exact ⟨hd, by simp, by simp⟩
    · rw [hstep]
      exact ⟨hle, by simp, fun _ => hlt⟩
    · rw [hstep]
      exact ⟨hle, by simp, by simp⟩
  · unfold LineReader.start run
    rcases hselect : r.select args with e | ⟨selected, id, tokens⟩
    · exact .inl ⟨e, rfl, rfl⟩
    · obtain ⟨rfl, hfirst, s, hs⟩ := select_eq_ok_drop hselect
      obtain ⟨calls, d', signal, hsteps⟩ :=
        LineReader.exists_steps (d := ⟨selected, id.firstToken⟩) hfirst id
      obtain ⟨hsorted, hrange, hlength, hend, _⟩ := hsteps.in_range hfirst
      obtain ⟨hregistry, hresult⟩ := hsteps.feed_eq hfirst hs
      exact .inr ⟨id, _, calls, d', signal, rfl, hsteps, by omega, fun c hc => (hrange c hc).2,
        hsorted, hend, hregistry.symm, hresult⟩

end Registry

end CommandLine

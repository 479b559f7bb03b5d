import CommandLine.Proofs.Frozen

/-!
# Handles in a session

A host works with several registries at once, starts new ones and closes old ones. Whatever it does
in between, a handle reads on the registry that gave it for as long as that registry lives, and on
no other one, not even on one that was started in its place (`performAll_handle`).

1. `lookup_perform_cases` says once where the registry of a name comes from: an operation of the
   session has started it, or it was there and at most one operation was performed on it.
2. A registry that is not closed or replaced goes through the operations that are for it
   (`lookup_performAll_of_lives`).
3. A new registry gets a number that none had before, so whatever has the number of a registry is
   that registry, which has lived on (`Numbered.lives_of_id_eq`).
-/

namespace CommandLine.Session

/-- What a host can do in a session: start a registry under a name, close it, or perform an operation
on it and keep the handle that this gives. Reading changes nothing. -/
inductive Operation where
  | start (name program description : String) (config : Config)
  | close (name : String)
  | operate (name saveAs : String) (operation : Registry.Operation)

/-- The session after an operation, whether it succeeds or not. -/
def perform (s : Session) : Operation → Session
  | .start name program description config => s.start name program description config
  | .close name => (s.close name).1
  | .operate name saveAs (.declareFlag long short k default description scope?) =>
    (s.declareFlag name saveAs long short k default description scope?).1
  | .operate name saveAs (.declareListFlag long short k description scope?) =>
    (s.declareListFlag name saveAs long short k description scope?).1
  | .operate name saveAs (.declareSubcommand subcommand description) =>
    (s.declareSubcommand name saveAs subcommand description).1
  | .operate name saveAs (.declarePositional positional description scope?) =>
    (s.declarePositional name saveAs positional description scope?).1
  | .operate name _ (.parse args) => (s.parse name args).1
  | .operate name _ .lastError => (s.lastError name).1
  | .operate name _ .clearError => (s.clearError name).1

/-- The session after operations, one by one. -/
def performAll (s : Session) (operations : List Operation) : Session := operations.foldl perform s

/-- An operation ends the life of the registry of a name: it closes it, or starts another in its
place. -/
def Operation.Ends (name : String) : Operation → Prop
  | .start name' _ _ _ => name' = name
  | .close name' => name' = name
  | .operate _ _ _ => False

/-- The registry of a name lives on while operations are performed. -/
def Lives (name : String) (operations : List Operation) : Prop :=
  ∀ operation ∈ operations, ¬ operation.Ends name

/-! ## Tables -/

theorem lookup_filter_ne {α : Type} (table : List (String × α)) (name n : String) :
    (table.filter (·.1 != name)).lookup n = if n = name then none else table.lookup n := by
  induction table with
  | nil => simp
  | cons entry table ih =>
    obtain ⟨key, a⟩ := entry
    by_cases hkey : key = name
    · rw [List.filter_cons_of_neg (by simp [hkey]), ih]
      by_cases hn : n = name
      · simp [hn]
      · simp [hn, List.lookup_cons, beq_false_of_ne (hkey ▸ hn : n ≠ key)]
    · rw [List.filter_cons_of_pos (by simp [hkey]), List.lookup_cons, List.lookup_cons, ih]
      by_cases hn : n = key
      · subst hn
        simp [hkey]
      · rw [beq_false_of_ne hn]

theorem lookup_put {α : Type} (table : List (String × α)) (name n : String) (a : α) :
    (put table name a).lookup n = if n = name then some a else table.lookup n := by
  unfold put
  rw [List.lookup_cons, lookup_filter_ne]
  by_cases hn : n = name
  · simp [hn]
  · rw [beq_false_of_ne hn, if_neg hn, if_neg hn]

theorem registry_eq_ok_iff {s : Session} {name : String} {r : Registry} :
    s.registry name = .ok r ↔ s.registries.lookup name = some r := by
  unfold registry
  cases s.registries.lookup name <;> simp

/-! ## One operation -/

theorem lookup_update {α : Type} (s : Session) (name : String)
    (operation : Registry → Registry × Except Error α) (n : String) :
    (s.update name operation).1.registries.lookup n =
      if n = name then (s.registries.lookup n).map fun r => (operation r).1
      else s.registries.lookup n := by
  unfold update registry
  cases hr : s.registries.lookup name with
  | none =>
    by_cases hn : n = name
    · simp [hn, hr]
    · simp [hn]
  | some r =>
    simp only [lookup_put]
    by_cases hn : n = name
    · simp [hn, hr]
    · simp [hn]

theorem nextId_update {α : Type} (s : Session) (name : String)
    (operation : Registry → Registry × Except Error α) :
    (s.update name operation).1.nextId = s.nextId := by
  unfold update
  split <;> rfl

/-- Keeping a handle does not touch the registries, so every operation on a registry is an update. -/
theorem exists_operate_eq_update (s : Session) (name saveAs : String)
    (operation : Registry.Operation) :
    ∃ (α : Type) (run : Registry → Registry × Except Error α),
      (∀ r, (run r).1 = r.perform operation) ∧
      (s.perform (.operate name saveAs operation)).nextId = (s.update name run).1.nextId ∧
      (s.perform (.operate name saveAs operation)).registries =
        (s.update name run).1.registries := by
  cases operation with
  | declareFlag long short k default description scope? =>
    refine ⟨_, (·.declareFlag long short k default description scope?), fun _ => rfl, ?_⟩
    simp only [perform, declareFlag]
    rcases s.update name (·.declareFlag long short k default description scope?) with ⟨s', e | h⟩
    · exact ⟨rfl, rfl⟩
    · exact ⟨rfl, rfl⟩
  | declareListFlag long short k description scope? =>
    refine ⟨_, (·.declareListFlag long short k description scope?), fun _ => rfl, ?_⟩
    simp only [perform, declareListFlag]
    rcases s.update name (·.declareListFlag long short k description scope?) with ⟨s', e | h⟩
    · exact ⟨rfl, rfl⟩
    · exact ⟨rfl, rfl⟩
  | declareSubcommand subcommand description =>
    refine ⟨_, (·.declareSubcommand subcommand description), fun _ => rfl, ?_⟩
    simp only [perform, declareSubcommand]
    rcases s.update name (·.declareSubcommand subcommand description) with ⟨s', e | h⟩
    · exact ⟨rfl, rfl⟩
    · exact ⟨rfl, rfl⟩
  | declarePositional positional description scope? =>
    refine ⟨_, (·.declarePositional positional description scope?), fun _ => rfl, ?_⟩
    simp only [perform, declarePositional]
    rcases s.update name (·.declarePositional positional description scope?) with ⟨s', e | h⟩
    · exact ⟨rfl, rfl⟩
    · exact ⟨rfl, rfl⟩
  | parse args => exact ⟨_, (·.parse args), fun _ => rfl, rfl, rfl⟩
  | lastError => exact ⟨_, fun r => (r.lastError.2, .ok r.lastError.1), fun _ => rfl, rfl, rfl⟩
  | clearError => exact ⟨_, fun r => (r.clearError, .ok ()), fun _ => rfl, rfl, rfl⟩

/-- An operation on the registry of a name leaves the others alone. -/
theorem lookup_operate (s : Session) (name saveAs : String) (operation : Registry.Operation)
    (n : String) :
    (s.perform (.operate name saveAs operation)).registries.lookup n =
      if n = name then (s.registries.lookup n).map (·.perform operation)
      else s.registries.lookup n := by
  obtain ⟨α, run, hrun, _, hregistries⟩ := s.exists_operate_eq_update name saveAs operation
  rw [hregistries, lookup_update]
  simp only [hrun]

theorem lookup_close (s : Session) (name n : String) :
    (s.perform (.close name)).registries.lookup n =
      if n = name then none else s.registries.lookup n := by
  show (s.close name).1.registries.lookup n = _
  unfold close registry
  cases hr : s.registries.lookup name with
  | none =>
    by_cases hn : n = name
    · rw [if_pos hn, hn]
      exact hr
    · rw [if_neg hn]
  | some r => exact lookup_filter_ne s.registries name n

theorem lookup_start (s : Session) (name program description : String) (config : Config)
    (n : String) :
    (s.perform (.start name program description config)).registries.lookup n =
      if n = name then some (Registry.start s.nextId program description config)
      else s.registries.lookup n :=
  lookup_put _ _ _ _

/-- Numbers only go up. -/
theorem nextId_le_perform (s : Session) (operation : Operation) :
    s.nextId ≤ (s.perform operation).nextId := by
  cases operation with
  | start name program description config => exact Nat.le_succ _
  | close name =>
    show _ ≤ (s.close name).1.nextId
    unfold close
    split
    · exact Nat.le_refl _
    · exact Nat.le_refl _
  | operate name saveAs operation =>
    obtain ⟨α, run, _, hid, _⟩ := s.exists_operate_eq_update name saveAs operation
    rw [hid, nextId_update]

/-! ## The life of a registry -/

/-- The operations that are for the registry of a name. -/
def Operation.own (name : String) : Operation → List Registry.Operation
  | .operate name' _ operation => if name = name' then [operation] else []
  | _ => []

theorem own_operate (name name' saveAs : String) (operation : Registry.Operation) :
    (Operation.operate name' saveAs operation).own name = if name = name' then [operation] else [] :=
  rfl

theorem lookup_perform_of_not_ends (s : Session) {operation : Operation} {name : String}
    (h : ¬ operation.Ends name) :
    (s.perform operation).registries.lookup name =
      (s.registries.lookup name).map (·.performAll (operation.own name)) := by
  cases operation with
  | start name' program description config =>
    rw [lookup_start, if_neg (Ne.symm h)]
    exact Option.map_id'.symm
  | close name' =>
    rw [lookup_close, if_neg (Ne.symm h)]
    exact Option.map_id'.symm
  | operate name' saveAs operation =>
    rw [lookup_operate, own_operate]
    split
    · rfl
    · exact Option.map_id'.symm

/-- While a registry lives, it goes through the operations that are for it, and through no other. -/
theorem lookup_performAll_of_lives (s : Session) {operations : List Operation} {name : String}
    (h : Lives name operations) :
    (s.performAll operations).registries.lookup name =
      (s.registries.lookup name).map (·.performAll (operations.flatMap (·.own name))) := by
  induction operations generalizing s with
  | nil => exact Option.map_id'.symm
  | cons operation operations ih =>
    obtain ⟨hfirst, hrest⟩ := List.forall_mem_cons.mp h
    show ((s.perform operation).performAll operations).registries.lookup name = _
    rw [ih _ hrest, lookup_perform_of_not_ends s hfirst, Option.map_map]
    congr 1
    funext r
    exact (Registry.performAll_append r _ _).symm

/-- A registry that there is after an operation is new, or it was there before. -/
theorem lookup_perform_cases {s : Session} {operation : Operation} {name : String} {r' : Registry}
    (h : (s.perform operation).registries.lookup name = some r') :
    (∃ program description config, operation = .start name program description config ∧
        r' = Registry.start s.nextId program description config) ∨
      (¬ operation.Ends name ∧ ∃ r, s.registries.lookup name = some r ∧
        r' = r.performAll (operation.own name)) := by
  by_cases hends : operation.Ends name
  · cases operation with
    | start name' program description config =>
      obtain rfl : name' = name := hends
      rw [lookup_start, if_pos rfl] at h
      exact .inl ⟨program, description, config, rfl, (Option.some.inj h).symm⟩
    | close name' =>
      obtain rfl : name' = name := hends
      rw [lookup_close, if_pos rfl] at h
      cases h
    | operate name' saveAs operation => exact hends.elim
  · rw [lookup_perform_of_not_ends s hends] at h
    obtain ⟨r, hr, rfl⟩ := Option.map_eq_some_iff.mp h
    exact .inr ⟨hends, r, hr, rfl⟩

/-! ## Numbers -/

/-- The registries of a session are reachable, and each has a number of its own, given out before. -/
structure Numbered (s : Session) : Prop where
  reachable : ∀ {name r}, s.registries.lookup name = some r → r.Reachable
  id_lt : ∀ {name r}, s.registries.lookup name = some r → r.id < s.nextId
  name_eq : ∀ {name name' r r'}, s.registries.lookup name = some r →
    s.registries.lookup name' = some r' → r.id = r'.id → name = name'

theorem numbered_empty : Numbered {} := by
  refine ⟨?_, ?_, ?_⟩
  · intro name r h
    cases h
  · intro name r h
    cases h
  · intro name name' r r' h
    cases h

/-- A registry whose number was given out before an operation was there before it. -/
theorem Numbered.exists_lookup_perform {s : Session} (hs : s.Numbered) {operation : Operation}
    {name : String} {r' : Registry} (h : (s.perform operation).registries.lookup name = some r')
    (hid : r'.id < s.nextId) :
    ∃ r, s.registries.lookup name = some r ∧ r.id = r'.id ∧ ¬ operation.Ends name := by
  rcases lookup_perform_cases h with ⟨program, description, config, _, rfl⟩ | ⟨hends, r, hr, rfl⟩
  · rw [Registry.id_start] at hid
    exact absurd hid (Nat.lt_irrefl _)
  · exact ⟨r, hr, (Registry.performAll_extends (hs.reachable hr) _).id_eq.symm, hends⟩

theorem Numbered.perform {s : Session} (hs : s.Numbered) (operation : Operation) :
    (s.perform operation).Numbered := by
  -- a new number is the number of the registry that the operation starts
  have hnew : ∀ {name r'}, (s.perform operation).registries.lookup name = some r' →
      r'.id < s.nextId ∨ (r'.id = s.nextId ∧ operation.Ends name ∧
        (s.perform operation).nextId = s.nextId + 1) := by
    intro name r' h
    rcases lookup_perform_cases h with ⟨program, description, config, rfl, rfl⟩ | ⟨_, r, hr, rfl⟩
    · exact .inr ⟨Registry.id_start .., rfl, rfl⟩
    · rw [(Registry.performAll_extends (hs.reachable hr) _).id_eq]
      exact .inl (hs.id_lt hr)
  refine ⟨?_, ?_, ?_⟩
  · intro name r' h
    rcases lookup_perform_cases h with ⟨program, description, config, rfl, rfl⟩ | ⟨_, r, hr, rfl⟩
    · exact .start ..
    · exact (hs.reachable hr).performAll _
  · intro name r' h
    rcases hnew h with hlt | ⟨hid, _, hnext⟩
    · exact Nat.lt_of_lt_of_le hlt (s.nextId_le_perform operation)
    · rw [hid, hnext]
      exact Nat.lt_succ_self _
  · intro name name' r r' h h' hid
    rcases hnew h with hlt | ⟨hmax, hends, _⟩
    · obtain ⟨q, hq, hqid, _⟩ := hs.exists_lookup_perform h hlt
      obtain ⟨q', hq', hqid', _⟩ := hs.exists_lookup_perform h' (hid ▸ hlt)
      exact hs.name_eq hq hq' (hqid.trans (hid.trans hqid'.symm))
    · rcases hnew h' with hlt' | ⟨_, hends', _⟩
      · rw [← hid, hmax] at hlt'
        exact absurd hlt' (Nat.lt_irrefl _)
      · cases operation with
        | start => exact Eq.trans (Eq.symm hends) hends'
        | close => exact Eq.trans (Eq.symm hends) hends'
        | operate => exact hends.elim

theorem Numbered.performAll {s : Session} (hs : s.Numbered) (operations : List Operation) :
    (s.performAll operations).Numbered := by
  induction operations generalizing s with
  | nil => exact hs
  | cons operation operations ih => exact ih (hs.perform operation)

/-- A registry whose number was given out before operations has lived through all of them. -/
theorem Numbered.exists_lookup_performAll {s : Session} (hs : s.Numbered)
    {operations : List Operation} {name : String} {r' : Registry}
    (h : (s.performAll operations).registries.lookup name = some r') (hid : r'.id < s.nextId) :
    ∃ r, s.registries.lookup name = some r ∧ r.id = r'.id ∧ Lives name operations := by
  induction operations generalizing s with
  | nil => exact ⟨r', h, rfl, fun _ hmem => absurd hmem List.not_mem_nil⟩
  | cons operation operations ih =>
    -- back through the later operations first, since their bound is the weaker one
    obtain ⟨q, hq, hqid, hlives⟩ := ih (hs.perform operation) h
      (Nat.lt_of_lt_of_le hid (s.nextId_le_perform operation))
    obtain ⟨r, hr, hrid, hends⟩ := hs.exists_lookup_perform hq (hqid ▸ hid)
    exact ⟨r, hr, hrid.trans hqid, List.forall_mem_cons.mpr ⟨hends, hlives⟩⟩

/-- A registry is known by its number: what has the number later is the same registry. -/
theorem Numbered.lives_of_id_eq {s : Session} (hs : s.Numbered) {name other : String}
    {r r' : Registry} (hr : s.registries.lookup name = some r) {operations : List Operation}
    (hr' : (s.performAll operations).registries.lookup other = some r') (hid : r'.id = r.id) :
    other = name ∧ Lives name operations := by
  obtain ⟨q, hq, hqid, hlives⟩ := hs.exists_lookup_performAll hr' (hid ▸ hs.id_lt hr)
  obtain rfl := hs.name_eq hq hr (hqid.trans hid)
  exact ⟨rfl, hlives⟩

/-! ## Handles -/

/-- **Handles.** A handle that a registry of a session gives, with any operations of the session
before and after, can be read on that registry for as long as it lives. The place of a flag's handle
is given to no later flag, and is that of no help flag; nor do two help flags share one. No other
registry of the session answers through the handle, nor one that is started in the registry's place.
-/
theorem performAll_handle (before after : List Operation) (name saveAs : String) {r : Registry}
    {operation : Registry.Operation} {handle : Handle}
    (hr : (performAll {} before).registry name = .ok r) (hgives : r.Gives operation handle) :
    let s := performAll {} (before ++ .operate name saveAs operation :: after)
    (Lives name after → ∃ r', s.registry name = .ok r' ∧ r'.Answers operation handle ∧
      (r'.helpFlags.map fun help => (help.scope, help.index)).Nodup ∧
      ∀ place, handle.place? = some place →
        (∀ help ∈ r'.helpFlags, (help.scope, help.index) ≠ place) ∧
        ∀ operation' handle', r'.Gives operation' handle' → handle'.place? ≠ some place) ∧
    ∀ other r', s.registry other = .ok r' → other ≠ name ∨ ¬ Lives name after →
      r'.Denies handle := by
  intro s
  have hbefore := numbered_empty.performAll before
  have hlookup := registry_eq_ok_iff.mp hr
  have hreach := hbefore.reachable hlookup
  have hs : s = (performAll {} before).performAll (.operate name saveAs operation :: after) :=
    List.foldl_append
  constructor
  · intro hlives
    have hlives' : Lives name (.operate name saveAs operation :: after) :=
      List.forall_mem_cons.mpr ⟨id, hlives⟩
    -- the registry at the end is the one that gave the handle, after operations of its own
    have hfinal := lookup_performAll_of_lives (performAll {} before) hlives'
    rw [← hs, hlookup, List.flatMap_cons, own_operate, if_pos rfl] at hfinal
    have hextends := Registry.performAll_extends (hreach.perform operation)
      (after.flatMap (·.own name))
    have hreach' := (hreach.perform operation).performAll (after.flatMap (·.own name))
    refine ⟨_, registry_eq_ok_iff.mpr hfinal, (hgives.leads.extends hextends).answers,
      hreach'.helpApart.nodup, ?_⟩
    intro place hplace
    refine ⟨hgives.ne_of_mem_helpFlags hreach hplace _, fun operation' handle' hgives' hsame => ?_⟩
    exact hgives'.not_taken hsame (hextends.taken (hgives.taken hplace))
  · intro other r' hother hapart
    apply Registry.denies_of_registry_ne
    intro hid
    have hid' : r'.id = r.id :=
      hid.symm.trans (hgives.leads.registry_eq.trans
        (Registry.perform_extends hreach operation).id_eq)
    rw [registry_eq_ok_iff, hs] at hother
    obtain ⟨rfl, hlives⟩ := hbefore.lives_of_id_eq hlookup hother hid'
    rcases hapart with hne | hends
    · exact hne rfl
    · exact hends (List.forall_mem_cons.mp hlives).2

theorem performAll_handle_sample :
    let handle : FlagHandle (.int .i32) := ⟨1, .global, 1⟩
    let s := performAll {} [.start "a" "press" "" { hashBuckets := 1 },
      .start "b" "press" "" { hashBuckets := 1 },
      .operate "a" "count" (.declareFlag "count" none (.int .i32) (.zero .i32) "" none),
      .operate "b" "count" (.declareFlag "count" none (.int .i32) (.zero .i32) "" none),
      .operate "a" "" (.parse ["--count", "7"])]
    let s' := s.perform (.start "a" "press" "" { hashBuckets := 1 })
    (∃ r x, s.registry "a" = .ok r ∧ r.get handle = .ok x ∧ r.defaultOf handle = .ok (.zero .i32)) ∧
      (∃ r, s.registry "b" = .ok r ∧ r.Denies (.value (.scalar _ handle))) ∧
      ∃ r, s'.registry "a" = .ok r ∧ r.Denies (.value (.scalar _ handle)) := by
  intro handle s s'
  let before : List Operation := [.start "a" "press" "" { hashBuckets := 1 },
    .start "b" "press" "" { hashBuckets := 1 }]
  let after : List Operation :=
    [.operate "b" "count" (.declareFlag "count" none (.int .i32) (.zero .i32) "" none),
      .operate "a" "" (.parse ["--count", "7"])]
  have hr : (performAll {} before).registry "a" =
    .ok (Registry.start 1 "press" "" { hashBuckets := 1 }) := rfl
  have hgives : (Registry.start 1 "press" "" { hashBuckets := 1 }).Gives
    (.declareFlag "count" none (.int .i32) (.zero .i32) "" none)
    (.value (.scalar (.int .i32) handle)) := .flag (by decide +kernel)
  obtain ⟨hown, hothers⟩ := performAll_handle before after "a" "count" hr hgives
  obtain ⟨_, hnew⟩ := performAll_handle before
    (after ++ [.start "a" "press" "" { hashBuckets := 1 }]) "a" "count" hr hgives
  refine ⟨?_, ⟨_, rfl, hothers "b" _ rfl (.inl (by decide))⟩, ⟨_, rfl, hnew "a" _ rfl (.inr ?_)⟩⟩
  · obtain ⟨r, hr', hanswers, _⟩ := hown (by simp [Lives, after, Operation.Ends])
    cases hanswers with
    | flag hget hdefault =>
      obtain ⟨x, hget⟩ := hget
      exact ⟨r, x, hr', hget, hdefault⟩
  · simp [Lives, Operation.Ends]

end CommandLine.Session

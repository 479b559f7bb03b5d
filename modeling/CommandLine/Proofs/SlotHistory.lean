import CommandLine.ErrorSlot
import Mathlib.Tactic.Common

/-!
# Histories of the error slot

Which of many failures a slot holds, told from what was done to it.

1. `Split` divides a history after the last operation that overwrites the slot. In the part that
   follows, a failure enters the slot only while nothing is pending there.
2. `Survives` says which failure is left by that part. If a message was read and a failure recorded
   after that, it is the first one recorded after the last such reading (`holds_of_reread`).
   Otherwise it is the one from before the part or else the first one recorded in it
   (`Holds.of_not_reread`).
3. The text of an internal failure is cut off when it is recorded and again when it is shown. That
   is the same as cutting it off once (`bounded_append_bounded`).
-/

namespace CommandLine

/-! ## Texts cut off at a limit -/

theorem bounded_append_bounded (front text : String) (limit : Nat) :
    bounded (front ++ bounded text limit) limit = bounded (front ++ text) limit := by
  have hmin : min (limit - front.toList.length) limit = limit - front.toList.length := by omega
  unfold bounded
  rw [String.toList_append, String.toList_append, String.toList_ofList, List.take_append,
    List.take_append, List.take_take, hmin]

/-- What a host is to show for a failure: the sentence of its kind, and for an internal failure the
first characters of what it says itself. -/
def Error.shown : Error → String
  | .internal detail => bounded (Error.internal detail).message ErrorSlot.internalLimit
  | e => e.kind.summary

/-! ## Operations -/

/-- What can be done with an error slot. -/
inductive SlotOperation where
  | record (e : Error)
  | recordFirst (e : Error)
  | message
  | kind
  | isClear
  | clear
  deriving DecidableEq

namespace SlotOperation

/-- Whether the operation replaces what the slot holds, whatever that is. -/
def overwrites : SlotOperation → Bool
  | .record _ | .clear => true
  | _ => false

/-- The failure that the operation records if nothing is pending. -/
def attempt? : SlotOperation → Option Error
  | .recordFirst e => some e
  | _ => none

/-- None of the operations overwrites the slot. -/
def Quiet (part : List SlotOperation) : Prop := ∀ operation ∈ part, operation.overwrites = false

/-- The first failure that one of the operations attempts to record. -/
def firstAttempt (part : List SlotOperation) : Option Error := part.findSome? attempt?

/-- A message is read, and afterwards there is an attempt to record a failure. -/
def Reread (part : List SlotOperation) : Prop :=
  ∃ front back e, part = front ++ .message :: back ∧ .recordFirst e ∈ back

/-- A history and the part of it after the last operation that overwrites the slot, with the failure
which that operation puts there. Without such an operation the part is the whole history. -/
inductive Split : List SlotOperation → Option Error → List SlotOperation → Prop
  | new {part : List SlotOperation} (hpart : Quiet part) : Split part none part
  | record (before : List SlotOperation) (e : Error) {part : List SlotOperation}
      (hpart : Quiet part) : Split (before ++ .record e :: part) (some e) part
  | clear (before : List SlotOperation) {part : List SlotOperation} (hpart : Quiet part) :
      Split (before ++ .clear :: part) none part

/-- The failure that a slot holds after a part of its history that overwrites nothing, given the
failure from before the part. -/
inductive Survives (origin : Option Error) (part : List SlotOperation) : Option Error → Prop
  | reread {front middle back : List SlotOperation} {e : Error}
      (hpart : part = front ++ .message :: (middle ++ .recordFirst e :: back))
      (hmiddle : ∀ operation ∈ middle, operation ≠ .message ∧ operation.attempt? = none)
      (hback : ¬ Reread back) : Survives origin part (some e)
  | kept (hpart : ¬ Reread part) : Survives origin part (origin.or (firstAttempt part))

/-! ## Parts of a history -/

theorem not_reread_nil : ¬ Reread [] := by
  rintro ⟨front, back, e, hpart, _⟩
  cases front <;> cases hpart

theorem reread_cons {operation : SlotOperation} {rest : List SlotOperation} :
    Reread (operation :: rest) ↔
      (operation = .message ∧ ∃ e, .recordFirst e ∈ rest) ∨ Reread rest := by
  constructor
  · rintro ⟨front, back, e, hpart, he⟩
    cases front with
    | nil =>
      obtain ⟨rfl, rfl⟩ := List.cons.inj hpart
      exact .inl ⟨rfl, e, he⟩
    | cons first front =>
      obtain ⟨_, rfl⟩ := List.cons.inj hpart
      exact .inr ⟨front, back, e, rfl, he⟩
  · rintro (⟨rfl, e, he⟩ | ⟨front, back, e, rfl, he⟩)
    · exact ⟨[], rest, e, rfl, he⟩
    · exact ⟨operation :: front, back, e, rfl, he⟩

theorem Reread.append {part : List SlotOperation} (h : Reread part)
    (front : List SlotOperation) : Reread (front ++ part) := by
  induction front with
  | nil => exact h
  | cons operation front ih => exact reread_cons.mpr (.inr ih)

/-- The first attempt in a part that has one. -/
theorem exists_first_attempt {part : List SlotOperation} {e : Error}
    (he : .recordFirst e ∈ part) :
    ∃ middle e' back, part = middle ++ .recordFirst e' :: back ∧
      ∀ operation ∈ middle, operation.attempt? = none := by
  induction part with
  | nil => cases he
  | cons first rest ih =>
    cases hfirst : first.attempt? with
    | some e' =>
      have heq : first = .recordFirst e' := by
        cases first <;> simp_all [attempt?]
      exact ⟨[], e', rest, by rw [heq]; rfl, by simp⟩
    | none =>
      have hne : SlotOperation.recordFirst e ≠ first := by
        rintro rfl
        cases hfirst
      obtain ⟨middle, e', back, rfl, hmiddle⟩ := ih ((List.mem_cons.mp he).resolve_left hne)
      exact ⟨first :: middle, e', back, rfl, List.forall_mem_cons.mpr ⟨hfirst, hmiddle⟩⟩

/-- The last reading that an attempt follows, and the first attempt after it. -/
theorem Reread.exists_last {part : List SlotOperation} (h : Reread part) :
    ∃ front middle e back, part = front ++ .message :: (middle ++ .recordFirst e :: back) ∧
      (∀ operation ∈ middle, operation ≠ .message ∧ operation.attempt? = none) ∧
      ¬ Reread back := by
  induction part with
  | nil => exact absurd h not_reread_nil
  | cons operation rest ih =>
    by_cases hrest : Reread rest
    · obtain ⟨front, middle, e, back, rfl, hmiddle, hback⟩ := ih hrest
      exact ⟨operation :: front, middle, e, back, rfl, hmiddle, hback⟩
    · obtain ⟨rfl, e, he⟩ := (reread_cons.mp h).resolve_right hrest
      obtain ⟨middle, e', back, rfl, hmiddle⟩ := exists_first_attempt he
      refine ⟨[], middle, e', back, rfl, fun operation hmem => ⟨?_, hmiddle operation hmem⟩, ?_⟩
      · -- a message in between would be a later reading that an attempt follows
        rintro rfl
        obtain ⟨first, second, rfl⟩ := List.append_of_mem hmem
        refine hrest ⟨first, second ++ .recordFirst e' :: back, e', ?_, ?_⟩
        · simp
        · exact List.mem_append_right _ List.mem_cons_self
      · intro hback
        refine hrest (Reread.append ?_ middle)
        exact reread_cons.mpr (.inr hback)

theorem exists_survives (origin : Option Error) (part : List SlotOperation) :
    ∃ e?, Survives origin part e? := by
  by_cases hpart : Reread part
  · obtain ⟨front, middle, e, back, heq, hmiddle, hback⟩ := hpart.exists_last
    exact ⟨some e, .reread heq hmiddle hback⟩
  · exact ⟨_, .kept hpart⟩

theorem exists_split (history : List SlotOperation) :
    ∃ origin part, Split history origin part := by
  induction history with
  | nil => exact ⟨none, [], .new (fun _ h => absurd h List.not_mem_nil)⟩
  | cons operation rest ih =>
    obtain ⟨origin, part, hsplit⟩ := ih
    cases hsplit with
    | record before e hpart => exact ⟨some e, part, .record (operation :: before) e hpart⟩
    | clear before hpart => exact ⟨none, part, .clear (operation :: before) hpart⟩
    | new hpart =>
      cases hfirst : operation.overwrites with
      | false => exact ⟨none, _, .new (List.forall_mem_cons.mpr ⟨hfirst, hpart⟩)⟩
      | true =>
        cases operation with
        | record e => exact ⟨some e, rest, .record [] e hpart⟩
        | clear => exact ⟨none, rest, .clear [] hpart⟩
        | _ => cases hfirst

end SlotOperation

namespace ErrorSlot

open SlotOperation

variable {s : ErrorSlot} {held : Option Error} {part : List SlotOperation}

/-- The slot after an operation. -/
def perform (s : ErrorSlot) : SlotOperation → ErrorSlot
  | .record e => s.record e
  | .recordFirst e => s.recordFirst e
  | .message => s.message.2
  | .kind | .isClear => s
  | .clear => s.clear

/-- The slot after operations, one by one. -/
def performAll (s : ErrorSlot) (history : List SlotOperation) : ErrorSlot :=
  history.foldl perform s

theorem performAll_append (s : ErrorSlot) (front back : List SlotOperation) :
    s.performAll (front ++ back) = (s.performAll front).performAll back :=
  List.foldl_append

theorem performAll_cons (s : ErrorSlot) (operation : SlotOperation) (rest : List SlotOperation) :
    s.performAll (operation :: rest) = (s.perform operation).performAll rest := rfl

/-! ## What a slot holds -/

/-- A slot holds what it keeps of a failure, or nothing. -/
structure Holds (s : ErrorSlot) (held : Option Error) : Prop where
  kind_eq : s.kind = held.map Error.kind
  detail_eq : s.detail = held.bind detailOf

theorem holds_empty : ({} : ErrorSlot).Holds none := ⟨rfl, rfl⟩

theorem holds_record (s : ErrorSlot) (e : Error) : (s.record e).Holds (some e) := ⟨rfl, rfl⟩

theorem Holds.isClear_eq (h : s.Holds held) : s.isClear = held.isNone := by
  unfold isClear
  rw [h.kind_eq, Option.isNone_map]

/-- The text that a slot shows is that of the failure it holds, although it keeps only a part of
what an internal failure says. -/
theorem Holds.text?_eq (h : s.Holds held) : s.text? = held.map Error.shown := by
  unfold text?
  rw [h.kind_eq, h.detail_eq]
  cases held with
  | none => rfl
  | some e =>
    cases e with
    | internal detail => exact congrArg some (bounded_append_bounded _ detail internalLimit)
    | _ => rfl

/-- Nothing is pending: the slot is empty, or its failure was read. -/
def IsOpen (s : ErrorSlot) : Prop := (s.isClear || s.read) = true

theorem recordFirst_of_isOpen (h : s.IsOpen) (e : Error) : s.recordFirst e = s.record e :=
  if_pos h

theorem isOpen_message (s : ErrorSlot) : s.message.2.IsOpen := by
  unfold IsOpen message
  cases hclear : s.isClear with
  | true => simp [hclear]
  | false => simp

/-! ## One operation -/

/-- An operation that records nothing leaves a slot what it holds, and does not close it. -/
theorem Holds.perform (h : s.Holds held) {operation : SlotOperation}
    (hquiet : operation.overwrites = false) (hnone : operation.attempt? = none) :
    (s.perform operation).Holds held := by
  cases operation with
  | record e => cases hquiet
  | clear => cases hquiet
  | recordFirst e => cases hnone
  | kind => exact h
  | isClear => exact h
  | message =>
    show s.message.2.Holds held
    unfold message
    dsimp only
    split
    · exact h
    · exact ⟨h.kind_eq, h.detail_eq⟩

theorem IsOpen.perform (h : s.IsOpen) {operation : SlotOperation}
    (hquiet : operation.overwrites = false) (hnone : operation.attempt? = none) :
    (s.perform operation).IsOpen := by
  cases operation with
  | record e => cases hquiet
  | clear => cases hquiet
  | recordFirst e => cases hnone
  | kind => exact h
  | isClear => exact h
  | message => exact s.isOpen_message

/-! ## Parts of a history -/

theorem Holds.performAll (h : s.Holds held) (hquiet : Quiet part)
    (hnone : ∀ operation ∈ part, operation.attempt? = none) : (s.performAll part).Holds held := by
  induction part generalizing s with
  | nil => exact h
  | cons operation rest ih =>
    obtain ⟨hquiet, hrest⟩ := List.forall_mem_cons.mp hquiet
    obtain ⟨hnone, hnone'⟩ := List.forall_mem_cons.mp hnone
    exact ih (h.perform hquiet hnone) hrest hnone'

theorem IsOpen.performAll (h : s.IsOpen) (hquiet : Quiet part)
    (hnone : ∀ operation ∈ part, operation.attempt? = none) : (s.performAll part).IsOpen := by
  induction part generalizing s with
  | nil => exact h
  | cons operation rest ih =>
    obtain ⟨hquiet, hrest⟩ := List.forall_mem_cons.mp hquiet
    obtain ⟨hnone, hnone'⟩ := List.forall_mem_cons.mp hnone
    exact ih (h.perform hquiet hnone) hrest hnone'

/-- If no attempt follows a reading, a failure that the slot holds unread stays, and an empty slot
gets the first one that is attempted. -/
theorem Holds.of_not_reread (h : s.Holds held) (hread : s.read = false) (hquiet : Quiet part)
    (hpart : ¬ Reread part) : (s.performAll part).Holds (held.or (firstAttempt part)) := by
  induction part generalizing s held with
  | nil =>
    rw [firstAttempt, List.findSome?_nil, Option.or_none]
    exact h
  | cons operation rest ih =>
    obtain ⟨hfirst, hrest⟩ := List.forall_mem_cons.mp hquiet
    rw [reread_cons, not_or] at hpart
    obtain ⟨hmessage, hpart⟩ := hpart
    cases operation with
    | record e => cases hfirst
    | clear => cases hfirst
    | kind => exact ih h hread hrest hpart
    | isClear => exact ih h hread hrest hpart
    | message =>
      -- the rest attempts nothing, so that it does not matter that the failure is read now
      have hnone : ∀ operation ∈ rest, operation.attempt? = none := by
        intro operation hmem
        cases operation with
        | recordFirst e => exact absurd ⟨rfl, e, hmem⟩ hmessage
        | _ => rfl
      have hattempt : firstAttempt (.message :: rest) = none :=
        List.findSome?_eq_none_iff.mpr (List.forall_mem_cons.mpr ⟨rfl, hnone⟩)
      rw [hattempt, Option.or_none]
      exact (h.perform rfl rfl).performAll hrest hnone
    | recordFirst e =>
      rw [performAll_cons]
      cases held with
      | none =>
        have hopen : s.IsOpen := by
          unfold IsOpen
          rw [h.isClear_eq]
          rfl
        have hstep : s.perform (.recordFirst e) = s.record e := recordFirst_of_isOpen hopen e
        rw [hstep]
        exact ih (s.holds_record e) rfl hrest hpart
      | some e₀ =>
        have hstep : s.perform (.recordFirst e) = s := by
          apply if_neg
          rw [h.isClear_eq, hread]
          exact Bool.false_ne_true
        rw [hstep]
        exact ih h hread hrest hpart

/-- The first attempt after a reading enters the slot, and stays if no later reading is followed by
an attempt. -/
theorem holds_of_reread {front middle back : List SlotOperation} {e : Error}
    (hquiet : Quiet (front ++ .message :: (middle ++ .recordFirst e :: back)))
    (hmiddle : ∀ operation ∈ middle, operation.attempt? = none) (hback : ¬ Reread back)
    (s : ErrorSlot) :
    (s.performAll (front ++ .message :: (middle ++ .recordFirst e :: back))).Holds (some e) := by
  obtain ⟨_, hquiet⟩ := List.forall_mem_append.mp hquiet
  obtain ⟨hquiet, hquiet'⟩ := List.forall_mem_append.mp (List.forall_mem_cons.mp hquiet).2
  have hopen : ((s.performAll front).message.2.performAll middle).IsOpen :=
    (isOpen_message _).performAll hquiet hmiddle
  rw [performAll_append, performAll_cons, performAll_append, performAll_cons]
  show (((s.performAll front).message.2.performAll middle).recordFirst e |>.performAll back).Holds _
  rw [recordFirst_of_isOpen hopen]
  exact (holds_record _ e).of_not_reread rfl (List.forall_mem_cons.mp hquiet').2 hback

theorem holds_of_survives {origin : Option Error} (h : s.Holds origin) (hread : s.read = false)
    (hquiet : Quiet part) (hsurvives : Survives origin part held) :
    (s.performAll part).Holds held := by
  cases hsurvives with
  | kept hpart => exact h.of_not_reread hread hquiet hpart
  | reread hpart hmiddle hback =>
    subst hpart
    exact holds_of_reread hquiet (fun operation hmem => (hmiddle operation hmem).2) hback s

/-! ## Whole histories -/

/-- **Histories of the slot.** Every history of a new slot splits after the last operation that
overwrites it, and leaves one failure or none by the rule of `Survives`. The slot then holds just
that: it answers for the kind, and whether there is a failure, accordingly. The message is the
fixed sentence of the kind, and for an internal failure the first 200 characters of what the failure
says. -/
theorem history_holds (history : List SlotOperation) :
    (∃ origin part held, Split history origin part ∧ Survives origin part held) ∧
      ∀ origin part held, Split history origin part → Survives origin part held →
        let s := ({} : ErrorSlot).performAll history
        s.Holds held ∧ s.isClear = held.isNone ∧ (held = none → s.message.1 = none) ∧
          (∀ e, held = some e → e.kind ≠ .internal → s.message.1 = some e.kind.summary) ∧
          ∀ detail, held = some (.internal detail) → s.message.1 =
            some (String.ofList (("Internal error was found at " ++ detail).toList.take 200)) := by
  constructor
  · obtain ⟨origin, part, hsplit⟩ := exists_split history
    obtain ⟨held, hsurvives⟩ := exists_survives origin part
    exact ⟨origin, part, held, hsplit, hsurvives⟩
  · intro origin part held hsplit hsurvives s
    have hholds : s.Holds held := by
      cases hsplit with
      | new hpart => exact holds_of_survives holds_empty rfl hpart hsurvives
      | record before e hpart =>
        show (performAll {} (before ++ .record e :: part)).Holds held
        rw [performAll_append, performAll_cons]
        exact holds_of_survives (holds_record (performAll {} before) e) rfl hpart hsurvives
      | clear before hpart =>
        show (performAll {} (before ++ .clear :: part)).Holds held
        rw [performAll_append, performAll_cons]
        exact holds_of_survives holds_empty rfl hpart hsurvives
    have htext : s.message.1 = held.map Error.shown := hholds.text?_eq
    refine ⟨hholds, hholds.isClear_eq, ?_, ?_, ?_⟩
    · rintro rfl
      exact htext
    · rintro e rfl hkind
      cases e with
      | internal detail => exact absurd rfl hkind
      | _ => exact htext
    · rintro detail rfl
      exact htext

theorem history_holds_sample :
    let detail := String.ofList (List.replicate 300 'é')
    let history : List SlotOperation := [.record .noArguments, .clear,
      .recordFirst (.unknownSubcommand "run"), .message, .kind, .recordFirst (.internal detail),
      .recordFirst (.unknownFlag "--nope"), .message]
    (({} : ErrorSlot).performAll history).kind = some .internal ∧
      (({} : ErrorSlot).performAll history).message.1 =
        some (String.ofList (("Internal error was found at " ++ detail).toList.take 200)) := by
  intro detail history
  have hsplit : Split history none (history.drop 2) :=
    .clear [.record .noArguments] (by simp [Quiet, overwrites])
  have hpart : history.drop 2 = [.recordFirst (.unknownSubcommand "run")] ++ .message ::
      ([.kind] ++ .recordFirst (.internal detail) ::
        [.recordFirst (.unknownFlag "--nope"), .message]) := rfl
  have hsurvives : Survives none (history.drop 2) (some (.internal detail)) :=
    .reread hpart (by simp [attempt?]) (by simp [reread_cons, not_reread_nil])
  obtain ⟨hholds, _, _, _, htext⟩ := (history_holds history).2 _ _ _ hsplit hsurvives
  exact ⟨hholds.kind_eq, htext detail rfl⟩

end ErrorSlot

end CommandLine

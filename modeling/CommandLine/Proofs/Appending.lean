import CommandLine.Proofs.Reading

/-!
# Appending in place

`ValueList.append` converts a run of tokens and gives a new list. A list can also grow in place:
`ValueList.extend` pushes each value as soon as its token is converted, and at a token that does not
convert it cuts the list back to the length that was noted at the start.

1. While values are pushed, the buffer is the list at the start and what was pushed since. So the
   loop ends with all values (`pushAll_of_forall`) or with the list at the start
   (`pushAll_of_first`).
2. Hence growing in place and `append` succeed and fail alike, with the same values and the same
   token, and a failure leaves the list as it was (`extend_of_append_eq_ok`,
   `extend_of_append_eq_error`).
3. To append two runs together is to append one after the other: for `append` whatever the outcome
   (`append_append`), in place if both succeed (`extend_append`).
-/

namespace CommandLine

theorem Kind.isSome_read?_of_not_isNumeric {k : Kind} (h : k.isNumeric = false) (token : String) :
    (k.read? token).isSome = true := by
  cases k with
  | bool => rfl
  | int t => cases h
  | string => rfl

/-- Tokens that all convert have one value each, in the same order. -/
theorem Kind.map_read?_of_forall {k : Kind} {tokens : List String}
    (h : ∀ token ∈ tokens, (k.read? token).isSome = true) :
    tokens.map k.read? = (tokens.filterMap k.read?).map some := by
  rw [List.map_filterMap_some_eq_filter_map_isSome, List.filter_eq_self.mpr]
  intro v hv
  obtain ⟨token, htoken, rfl⟩ := List.mem_map.mp hv
  exact h token htoken

namespace ValueList

/-! ## The loop -/

/-- Pushes the values of tokens onto a buffer, one by one. At a token that does not convert, the
buffer is cut back to its first `start` elements, and the token is the error. -/
def pushAll {k : Kind} (start : Nat) (buffer : List k.Carrier) :
    List String → List k.Carrier × Except String Unit
  | [] => (buffer, .ok ())
  | token :: rest =>
    match k.read? token with
    | some v => pushAll start (buffer ++ [v]) rest
    | none => (buffer.take start, .error token)

/-- Appends the values of tokens in place: the list afterwards, and the token that does not convert
if there is one. -/
def extend (l : ValueList) (tokens : List String) : ValueList × Except String Unit :=
  let pushed := pushAll l.items.length l.items tokens
  (⟨l.kind, pushed.1⟩, pushed.2)

section Loop

variable {k : Kind} {old pushed : List k.Carrier}

theorem pushAll_cons_of_some {start : Nat} {buffer : List k.Carrier} {token : String}
    {rest : List String} {v : k.Carrier} (h : k.read? token = some v) :
    pushAll start buffer (token :: rest) = pushAll start (buffer ++ [v]) rest := by
  rw [pushAll, h]

/-- A token that does not convert takes back all that was pushed. -/
theorem pushAll_cons_of_none {token : String} {rest : List String} (h : k.read? token = none) :
    pushAll old.length (old ++ pushed) (token :: rest) = (old, .error token) := by
  rw [pushAll, h]
  simp only [List.take_left]

theorem pushAll_of_forall {start : Nat} {buffer : List k.Carrier} {tokens : List String}
    (h : ∀ token ∈ tokens, (k.read? token).isSome = true) :
    pushAll start buffer tokens = (buffer ++ tokens.filterMap k.read?, .ok ()) := by
  induction tokens generalizing buffer with
  | nil => rw [pushAll, List.filterMap_nil, List.append_nil]
  | cons token tokens ih =>
    obtain ⟨hhead, htail⟩ := List.forall_mem_cons.mp h
    obtain ⟨v, hv⟩ := Option.isSome_iff_exists.mp hhead
    rw [pushAll_cons_of_some hv, ih htail, List.filterMap_cons_some hv, List.append_assoc]
    rfl

/-- However much was pushed before the failure, the buffer is as it was at the start. -/
theorem pushAll_of_first {before : List String} {u : String} {after : List String}
    (hbefore : ∀ token ∈ before, (k.read? token).isSome = true) (hu : k.read? u = none) :
    pushAll old.length (old ++ pushed) (before ++ u :: after) = (old, .error u) := by
  induction before generalizing pushed with
  | nil => exact pushAll_cons_of_none hu
  | cons token before ih =>
    obtain ⟨hhead, htail⟩ := List.forall_mem_cons.mp hbefore
    obtain ⟨v, hv⟩ := Option.isSome_iff_exists.mp hhead
    rw [List.cons_append, pushAll_cons_of_some hv, List.append_assoc]
    exact ih htail

end Loop

/-! ## All tokens or none -/

section Outcome

variable {k : Kind} {items : List k.Carrier} {tokens before after : List String} {u : String}

theorem extend_of_forall (h : ∀ token ∈ tokens, (k.read? token).isSome = true) :
    extend ⟨k, items⟩ tokens = (⟨k, items ++ tokens.filterMap k.read?⟩, .ok ()) := by
  unfold extend
  rw [pushAll_of_forall h]

theorem extend_of_first (hbefore : ∀ token ∈ before, (k.read? token).isSome = true)
    (hu : k.read? u = none) :
    extend ⟨k, items⟩ (before ++ u :: after) = (⟨k, items⟩, .error u) := by
  have hpushed : pushAll items.length (items ++ []) (before ++ u :: after) = (items, .error u) :=
    pushAll_of_first hbefore hu
  rw [List.append_nil] at hpushed
  unfold extend
  rw [hpushed]

theorem forall_of_extend_eq_ok (h : (extend ⟨k, items⟩ tokens).2 = .ok ()) :
    ∀ token ∈ tokens, (k.read? token).isSome = true := by
  rcases k.forall_read_or_exists_first tokens with hall | ⟨before, u, after, rfl, hbefore, hu⟩
  · exact hall
  · rw [extend_of_first hbefore hu] at h
    cases h

end Outcome

theorem extend_of_append_eq_ok {l l' : ValueList} {tokens : List String}
    (h : l.append tokens = .ok l') : l.extend tokens = (l', .ok ()) := by
  obtain ⟨k, items⟩ := l
  rcases k.forall_read_or_exists_first tokens with hall | ⟨before, u, after, rfl, hbefore, hu⟩
  · rw [append_of_forall hall] at h
    rw [extend_of_forall hall, Except.ok.inj h]
  · rw [append_of_first hbefore hu] at h
    cases h

theorem extend_of_append_eq_error {l : ValueList} {tokens : List String} {u : String}
    (h : l.append tokens = .error u) : l.extend tokens = (l, .error u) := by
  obtain ⟨k, items⟩ := l
  rcases k.forall_read_or_exists_first tokens with hall | ⟨before, u', after, rfl, hbefore, hu⟩
  · rw [append_of_forall hall] at h
    cases h
  · rw [append_of_first hbefore hu] at h
    rw [extend_of_first hbefore hu, Except.error.inj h]

/-! ## One run after another -/

/-- A failure of either run is a failure of the two together, at the same token. -/
theorem append_append (l : ValueList) (tokens more : List String) :
    l.append (tokens ++ more) = (l.append tokens).bind fun l' => l'.append more := by
  obtain ⟨k, items⟩ := l
  rcases k.forall_read_or_exists_first tokens with hall | ⟨before, u, after, rfl, hbefore, hu⟩
  · rw [append_of_forall hall]
    show _ = append ⟨k, items ++ tokens.filterMap k.read?⟩ more
    rcases k.forall_read_or_exists_first more with hmore | ⟨before, u, after, rfl, hbefore, hu⟩
    · rw [append_of_forall (List.forall_mem_append.mpr ⟨hall, hmore⟩), append_of_forall hmore,
        List.filterMap_append, List.append_assoc]
    · rw [← List.append_assoc, append_of_first (List.forall_mem_append.mpr ⟨hall, hbefore⟩) hu,
        append_of_first hbefore hu]
  · rw [List.append_assoc, List.cons_append, append_of_first hbefore hu, append_of_first hbefore hu]
    rfl

/-- If the second run failed, the first would be kept only where it was appended apart. -/
theorem extend_append {l : ValueList} {tokens more : List String}
    (htokens : (l.extend tokens).2 = .ok ())
    (hmore : ((l.extend tokens).1.extend more).2 = .ok ()) :
    l.extend (tokens ++ more) = (l.extend tokens).1.extend more := by
  obtain ⟨k, items⟩ := l
  have hall := forall_of_extend_eq_ok htokens
  rw [extend_of_forall hall] at hmore ⊢
  have hall' := forall_of_extend_eq_ok hmore
  rw [extend_of_forall (List.forall_mem_append.mpr ⟨hall, hall'⟩), extend_of_forall hall',
    List.filterMap_append, List.append_assoc]

/-- If all tokens convert, their values are appended. Otherwise the first token that does not
convert is the error, and the list stays as it is. The kind stays in any case, and truth values and
texts always convert. Two runs together are one run after the other. -/
theorem append_all_or_nothing (l : ValueList) (tokens more : List String) :
    ((∀ token ∈ tokens, (l.kind.read? token).isSome = true) →
      ∃ vs, tokens.map l.kind.read? = vs.map some ∧
        l.append tokens = .ok ⟨l.kind, l.items ++ vs⟩ ∧
        l.extend tokens = (⟨l.kind, l.items ++ vs⟩, .ok ())) ∧
    ((¬ ∀ token ∈ tokens, (l.kind.read? token).isSome = true) →
      ∃ before u after, tokens = before ++ u :: after ∧
        (∀ token ∈ before, (l.kind.read? token).isSome = true) ∧ l.kind.read? u = none ∧
        l.append tokens = .error u ∧ l.extend tokens = (l, .error u)) ∧
    (l.extend tokens).1.kind = l.kind ∧
    (l.kind = .bool ∨ l.kind = .string → (l.extend tokens).2 = .ok ()) ∧
    l.append (tokens ++ more) = ((l.append tokens).bind fun l' => l'.append more) ∧
    ((l.extend tokens).2 = .ok () → ((l.extend tokens).1.extend more).2 = .ok () →
      l.extend (tokens ++ more) = (l.extend tokens).1.extend more) := by
  refine ⟨fun hall => ?_, fun hnot => ?_, rfl, fun hkind => ?_,
    append_append l tokens more, extend_append⟩
  · exact ⟨_, Kind.map_read?_of_forall hall, append_of_forall hall, extend_of_forall hall⟩
  · rcases l.kind.forall_read_or_exists_first tokens with
      hall | ⟨before, u, after, rfl, hbefore, hu⟩
    · exact absurd hall hnot
    · exact ⟨before, u, after, rfl, hbefore, hu, append_of_first hbefore hu,
        extend_of_first hbefore hu⟩
  · have hnumeric : l.kind.isNumeric = false := by
      rcases hkind with h | h <;> rw [h] <;> rfl
    rw [extend_of_forall fun token _ => Kind.isSome_read?_of_not_isNumeric hnumeric token]

/-- A list of octets with one element. -/
def sampleOctets : ValueList := ⟨.int .u8, [⟨7, by decide, by decide⟩]⟩

/-- The octet stays alone where the second of three tokens is no number, also after the first was
pushed. -/
theorem append_all_or_nothing_sample :
    (¬ ∀ token ∈ ["8", "nine", "10"], (sampleOctets.kind.read? token).isSome = true) ∧
    (∃ before u after, ["8", "nine", "10"] = before ++ u :: after ∧
      (∀ token ∈ before, (sampleOctets.kind.read? token).isSome = true) ∧
      sampleOctets.kind.read? u = none ∧
      sampleOctets.append ["8", "nine", "10"] = .error u ∧
      sampleOctets.extend ["8", "nine", "10"] = (sampleOctets, .error u)) ∧
    (∀ token ∈ ["8", "0x9"], (sampleOctets.kind.read? token).isSome = true) ∧
    (∃ vs, ["8", "0x9"].map sampleOctets.kind.read? = vs.map some ∧
      sampleOctets.append ["8", "0x9"] = .ok ⟨_, sampleOctets.items ++ vs⟩ ∧
      sampleOctets.extend ["8", "0x9"] = (⟨_, sampleOctets.items ++ vs⟩, .ok ())) ∧
    sampleOctets.extend (["8", "0x9"] ++ ["012"]) =
      (sampleOctets.extend ["8", "0x9"]).1.extend ["012"] ∧
    ((empty .bool).extend ["true", "no"]).2 = .ok () := by
  have hnot : ¬ ∀ token ∈ ["8", "nine", "10"], (sampleOctets.kind.read? token).isSome = true := by
    decide +kernel
  have hall : ∀ token ∈ ["8", "0x9"], (sampleOctets.kind.read? token).isSome = true := by
    decide +kernel
  have hfails := append_all_or_nothing sampleOctets ["8", "nine", "10"] []
  have hgrows := append_all_or_nothing sampleOctets ["8", "0x9"] ["012"]
  have hswitches := append_all_or_nothing (empty .bool) ["true", "no"] []
  exact ⟨hnot, hfails.2.1 hnot, hall, hgrows.1 hall,
    hgrows.2.2.2.2.2 (by decide +kernel) (by decide +kernel), hswitches.2.2.2.1 (.inl rfl)⟩

end ValueList

end CommandLine

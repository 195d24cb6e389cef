import CurriedTypings.Proofs.Delivery
import CurriedTypings.Proofs.Emission
import CurriedTypings.Proofs.Overloads

/-!
# What a run asks for

A run that cannot prepare all functions asks for nothing. Any other run asks for the
chunks of `moduleChunks`: the header with the helper types, a block per function, the
footer.

The sequential run carries one emitter along; between two chunks its buffer is empty
and its level is one, which is the state in which blocks are rendered on their own
(`sequentialTail_eq`). The schedule of a parallel run has no influence, since results
are put back into the order of the names before the first failure is looked for
(`renderAll_eq`).
-/

namespace CurriedTypings

namespace Generation

variable {α β σ : Type}

/-! ## Schedules -/

theorem lookup_runScheduled (jobs : List α) (task : α → β) (i : Nat) :
    ∀ schedule : List Nat, (runScheduled schedule jobs task).lookup i
      = if i ∈ schedule then (jobs[i]?).map task else none
  | [] => rfl
  | j :: rest => by
      have ih := lookup_runScheduled jobs task i rest
      rw [runScheduled] at ih ⊢
      by_cases hij : i = j
      · subst hij
        cases hjob : jobs[i]? with
        | none =>
            rw [List.filterMap_cons_none (by rw [hjob]; rfl), ih, hjob]
            simp
        | some job =>
            rw [List.filterMap_cons_some (by rw [hjob]; rfl)]
            simp
      · have hne : (i == j) = false := by simpa using hij
        cases hjob : jobs[j]? with
        | none =>
            rw [List.filterMap_cons_none (by rw [hjob]; rfl), ih]
            simp [hij]
        | some job =>
            rw [List.filterMap_cons_some (by rw [hjob]; rfl), List.lookup_cons, hne, ih]
            simp [hij]

theorem filterMap_getElem?_range :
    ∀ xs : List α, (List.range xs.length).filterMap (fun i => xs[i]?) = xs
  | [] => rfl
  | x :: xs => by
      simp only [List.length_cons, List.range_succ_eq_map, List.filterMap_cons,
        List.getElem?_cons_zero, List.filterMap_map]
      exact congrArg (x :: ·) (filterMap_getElem?_range xs)

/-- Jobs done in any order, each once, have the results they have one after the other. -/
theorem inJobOrder_runScheduled {schedule : List Nat} {jobs : List α} (task : α → β)
    (once : schedule.Perm (List.range jobs.length)) :
    inJobOrder jobs.length (runScheduled schedule jobs task) = jobs.map task := by
  have hresult : ∀ i ∈ List.range jobs.length,
      (runScheduled schedule jobs task).lookup i = (jobs.map task)[i]? := by
    intro i hi
    rw [lookup_runScheduled, if_pos (once.mem_iff.mpr hi), List.getElem?_map]
  have hlength : jobs.length = (jobs.map task).length := (List.length_map ..).symm
  rw [inJobOrder, List.filterMap_congr hresult, hlength, filterMap_getElem?_range]

theorem prepareOne_of_error {store : Store} {name : String} {e : MetadataError}
    (h : store.get name = .error e) : prepareOne store name = .error (.metadata e) := by
  rw [prepareOne, h]

theorem prepareOne_of_ok {store : Store} {name : String} {f : FunctionRecord}
    (h : store.get name = .ok f) :
    prepareOne store name = f.curried.mapError (.signature (some name)) := by
  rw [prepareOne, h]
  cases hcurried : f.curried <;> simp only [hcurried, Except.mapError]

theorem prepareOne_eq_ok_iff {store : Store} {name : String} {c : CurriedFunction} :
    prepareOne store name = .ok c ↔ ∃ f, store.get name = .ok f ∧ f.curried = .ok c := by
  cases hget : store.get name with
  | error e =>
      rw [prepareOne_of_error hget]
      exact ⟨nofun, fun ⟨_, hf, _⟩ => nomatch hf⟩
  | ok f =>
      rw [prepareOne_of_ok hget]
      constructor
      · intro h
        cases hcurried : f.curried with
        | error e => rw [hcurried] at h; cases h
        | ok c' =>
            rw [hcurried] at h
            obtain rfl := Except.ok.inj h
            exact ⟨f, rfl, hcurried⟩
      · rintro ⟨g, hg, hcurried⟩
        obtain rfl := Except.ok.inj hg
        rw [hcurried]
        rfl

theorem renderOne_eq (store : Store) (options : ModuleOptions) (name : String) :
    renderOne store options name
      = (prepareOne store name).map fun c => (Emitter.functionBlock options c, c) := by
  rw [renderOne]
  cases prepareOne store name <;> rfl

/-- Whatever the schedule, blocks are rendered of the functions that are prepared one after
the other, and the first failure in the order of the names is the one that counts. -/
theorem renderAll_eq {store : Store} {options : ModuleOptions} {schedule : List Nat}
    {names : List String} (once : schedule.Perm (List.range names.length)) :
    renderAll store options schedule names
      = (prepare store names).map (List.map fun c => (Emitter.functionBlock options c, c)) := by
  rw [renderAll, inJobOrder_runScheduled _ once, List.mapM_map, prepare, ← mapM_map_result]
  exact congrArg (fun f => names.mapM f) (funext fun name => renderOne_eq store options name)

/-! ## Chunks -/

/-- The header with the helper types. -/
def opening (options : ModuleOptions) (definitions : List ContinuationDefinition) : String :=
  (({ options : Emitter }).header.helpers definitions).buffer

/-- The footer, which is not indented. -/
def closing : String := "\x7d\n"

/-- The texts a module is written in, one after the other. -/
def moduleChunks (options : ModuleOptions) (definitions : List ContinuationDefinition)
    (functions : List CurriedFunction) : List String :=
  opening options definitions :: (functions.map (Emitter.functionBlock options) ++ [closing])

/-- After the header and the helpers have been taken out, the buffer is empty and the level is
one: the state in which blocks are rendered. -/
theorem take_opening (options : ModuleOptions) (definitions : List ContinuationDefinition) :
    (({ options : Emitter }).header.helpers definitions).take
      = ({ options, level := 1 }, opening options definitions) := by
  rw [opening, Emitter.helpers_eq_put]
  rfl

/-- A block leaves the emitter in the state it was rendered in. -/
theorem take_function (options : ModuleOptions) (c : CurriedFunction) :
    (({ options, level := 1 : Emitter }).function c).take
      = ({ options, level := 1 }, Emitter.functionBlock options c) := by
  rw [Emitter.functionBlock, Emitter.function_eq_put]
  rfl

theorem take_footer (options : ModuleOptions) :
    (({ options, level := 1 : Emitter }).footer).take.2 = closing := by
  simp [Emitter.footer, Emitter.dedent, Emitter.statement, Emitter.take, indentation, closing]

theorem sequentialTail_eq (options : ModuleOptions) :
    ∀ functions : List CurriedFunction, sequentialTail { options, level := 1 } functions
      = functions.flatMap (fun c => [.write (Emitter.functionBlock options c), .flush])
        ++ [.write closing, .flush]
  | [] => by rw [sequentialTail, take_footer]; rfl
  | c :: rest => by
      rw [sequentialTail, take_function]
      simp only [sequentialTail_eq options rest]
      rfl

theorem sequentialOps_eq (options : ModuleOptions) (definitions : List ContinuationDefinition)
    (functions : List CurriedFunction) : sequentialOps options definitions functions
      = .write (opening options definitions)
        :: (functions.flatMap (fun c => [.write (Emitter.functionBlock options c), .flush])
          ++ [.write closing, .flush]) := by
  rw [sequentialOps, take_opening]
  simp only [sequentialTail_eq]

theorem parallelOps_eq (options : ModuleOptions) (definitions : List ContinuationDefinition)
    (blocks : List String) : parallelOps options definitions blocks
      = .write (opening options definitions)
        :: (blocks.map .write ++ [.write closing, .flush]) := by
  rw [parallelOps, take_opening]
  simp only [take_footer]

theorem chunks_sequentialOps (options : ModuleOptions)
    (definitions : List ContinuationDefinition) (functions : List CurriedFunction) :
    OutputOp.chunks (sequentialOps options definitions functions)
      = moduleChunks options definitions functions := by
  have hblocks : ∀ cs : List CurriedFunction,
      OutputOp.chunks (cs.flatMap (fun c => [.write (Emitter.functionBlock options c), .flush])
        ++ [.write closing, .flush]) = cs.map (Emitter.functionBlock options) ++ [closing] := by
    intro cs
    induction cs with
    | nil => rfl
    | cons c rest ih =>
        rw [List.flatMap_cons, List.append_assoc]
        exact congrArg (Emitter.functionBlock options c :: ·) ih
  rw [sequentialOps_eq, OutputOp.chunks_write, hblocks]
  rfl

theorem chunks_parallelOps (options : ModuleOptions)
    (definitions : List ContinuationDefinition) (functions : List CurriedFunction) :
    OutputOp.chunks (parallelOps options definitions
        (functions.map (Emitter.functionBlock options)))
      = moduleChunks options definitions functions := by
  have hblocks : ∀ blocks : List String,
      OutputOp.chunks (blocks.map .write ++ [.write closing, .flush]) = blocks ++ [closing] := by
    intro blocks
    induction blocks with
    | nil => rfl
    | cons b rest ih => exact congrArg (b :: ·) ih
  rw [parallelOps_eq, OutputOp.chunks_write, hblocks]
  rfl

/-! ## Runs -/

variable {d : Destination σ} {store : Store} {options : ModuleOptions} {names : List String}
  {schedule : List Nat}

theorem interfaces_of_ok {definitions : List ContinuationDefinition}
    (hd : continuationDefinitions = .ok definitions) : interfaces = .ok definitions := by
  rw [interfaces, hd]

theorem generate_of_error {e : GenerationError} (h : prepare store names = .error e) (s : σ) :
    generate d store options names s = (s, .error e) := by
  obtain ⟨definitions, hd⟩ := continuationDefinitions_ok
  rw [generate, interfaces_of_ok hd]
  simp only [h]

theorem generate_of_ok {definitions : List ContinuationDefinition}
    {functions : List CurriedFunction} (hd : continuationDefinitions = .ok definitions)
    (h : prepare store names = .ok functions) (s : σ) :
    generate d store options names s
      = d.deliver (sequentialOps options definitions functions) (Report.total functions) s := by
  rw [generate, interfaces_of_ok hd]
  simp only [h]

theorem generateParallel_of_error (once : schedule.Perm (List.range names.length))
    {e : GenerationError} (h : prepare store names = .error e) (s : σ) :
    generateParallel d store options schedule names s = (s, .error e) := by
  obtain ⟨definitions, hd⟩ := continuationDefinitions_ok
  rw [generateParallel, interfaces_of_ok hd]
  simp only [renderAll_eq once, h, Except.map]

theorem generateParallel_of_ok (once : schedule.Perm (List.range names.length))
    {definitions : List ContinuationDefinition} {functions : List CurriedFunction}
    (hd : continuationDefinitions = .ok definitions)
    (h : prepare store names = .ok functions) (s : σ) :
    generateParallel d store options schedule names s
      = d.deliver (parallelOps options definitions
          (functions.map (Emitter.functionBlock options))) (Report.total functions) s := by
  rw [generateParallel, interfaces_of_ok hd]
  simp only [renderAll_eq once, h, Except.map, List.map_map]
  congr 2
  exact List.map_id _

end Generation

end CurriedTypings

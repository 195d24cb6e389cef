import CurriedTypings.Proofs.Runs

/-!
# Sequential and parallel runs

A module is rendered in four ways: one emitter writes it piece by piece, blocks are
rendered on their own in the order of some schedule and put between a header and a
footer, one emitter writes the whole module at once (`module_eq_join`), and a text is
read back from the bytes of a run (`generateText_of_ok`). The headline theorem
`generateParallel_agrees` says that all of them produce the same chunks, for every
destination that refuses nothing.
-/

namespace CurriedTypings

namespace Generation

variable {store : Store} {options : ModuleOptions} {names : List String}

theorem opening_eq (options : ModuleOptions) (definitions : List ContinuationDefinition) :
    opening options definitions = Line.renderAll 0 [Emitter.headerLine options]
      ++ Line.renderAll 1 (Emitter.helperLines definitions) := by
  rw [opening, Emitter.helpers_eq_put, Emitter.header_eq_put]
  simp [Emitter.put, Emitter.indent]

theorem closing_eq : closing = Line.renderAll 0 [Emitter.footerLine] := by
  simp [closing, Emitter.footerLine, Line.render, indentation]

/-- One emitter that writes the module at once writes the chunks one after the other. -/
theorem module_eq_join (options : ModuleOptions) (definitions : List ContinuationDefinition)
    (functions : List CurriedFunction) :
    (({ options : Emitter }).module definitions functions).2
      = String.join (moduleChunks options definitions functions) := by
  have hblocks : Line.renderAll 1 (functions.flatMap (Emitter.functionLines options))
      = String.join (functions.map (Emitter.functionBlock options)) := by
    induction functions with
    | nil => simp
    | cons c functions ih => simp [ih, Emitter.functionBlock_eq]
  rw [Emitter.module_eq_put, moduleChunks, opening_eq, closing_eq]
  simp [Emitter.take, Emitter.put, Emitter.moduleLines, Line.renderAll_deeper, hblocks,
    String.append_assoc]

theorem generateText_of_error {e : GenerationError} (h : prepare store names = .error e) :
    generateText store options names = .error e := by
  rw [generateText, generate_of_error h]

/-- The bytes of a run read back as the text of its chunks. -/
theorem generateText_of_ok {definitions : List ContinuationDefinition}
    {functions : List CurriedFunction} (hd : continuationDefinitions = .ok definitions)
    (h : prepare store names = .ok functions) :
    generateText store options names
      = .ok (String.join (moduleChunks options definitions functions)) := by
  have hbytes := performAll_byteDestination (sequentialOps options definitions functions) ""
  rw [chunks_sequentialOps, String.empty_append] at hbytes
  have hrun : generate byteDestination store options names "".toUTF8
      = byteDestination.deliver (sequentialOps options definitions functions)
          (Report.total functions) "".toUTF8 := generate_of_ok hd h _
  rw [Destination.deliver, hbytes] at hrun
  rw [generateText, show ByteArray.empty = "".toUTF8 from rfl, hrun]
  simp only [fromUTF8?_toUTF8]

end Generation

open Generation

/-- **The two modes agree.** Let a destination refuse nothing and let each job of the pool be
done once, in any order. Both runs end with the same result and hand over the same chunks. If
a name cannot be prepared, they hand over nothing and both fail for the same reason. Otherwise
there is one block per name, in the order of the names, between the header and the footer; the
sequential run flushes after every block and after the footer, the parallel run only after the
footer. The chunks make up the text of the module, whether it is read back from bytes or
written by one emitter at once. -/
theorem generateParallel_agrees {σ : Type} {d : Destination σ} (reliable : d.Reliable)
    (store : Store) (options : ModuleOptions) {names : List String} {schedule : List Nat}
    (once : schedule.Perm (List.range names.length)) (s : σ) :
    let sequential := generate d.traced store options names (s, [])
    let parallel := generateParallel d.traced store options schedule names (s, [])
    generate d store options names s = (sequential.1.1, sequential.2)
      ∧ generateParallel d store options schedule names s = (parallel.1.1, parallel.2)
      ∧ parallel.2 = sequential.2
      ∧ OutputOp.chunks parallel.1.2 = OutputOp.chunks sequential.1.2
      ∧ ((∃ e, sequential = ((s, []), .error e) ∧ parallel = ((s, []), .error e)
            ∧ generateText store options names = .error e)
        ∨ ∃ definitions functions report,
            continuationDefinitions = .ok definitions
            ∧ prepare store names = .ok functions
            ∧ List.Forall₂ (fun name c => prepareOne store name = .ok c) names functions
            ∧ sequential.2 = .ok report
            ∧ OutputOp.chunks sequential.1.2 = opening options definitions
                :: (functions.map (Emitter.functionBlock options) ++ [closing])
            ∧ sequential.1.2 = .write (opening options definitions)
                :: (functions.flatMap (fun c => [.write (Emitter.functionBlock options c), .flush])
                  ++ [.write closing, .flush])
            ∧ parallel.1.2 = .write (opening options definitions)
                :: ((functions.map (Emitter.functionBlock options)).map .write
                  ++ [.write closing, .flush])
            ∧ generateText store options names
                = .ok (String.join (OutputOp.chunks sequential.1.2))
            ∧ (({ options : Emitter }).module definitions functions).2
                = String.join (OutputOp.chunks sequential.1.2)) := by
  intro sequential parallel
  cases h : prepare store names with
  | error e =>
      have hs : sequential = ((s, []), .error e) := generate_of_error h _
      have hp : parallel = ((s, []), .error e) := generateParallel_of_error once h _
      rw [hs, hp]
      exact ⟨generate_of_error h s, generateParallel_of_error once h s, rfl, rfl,
        Or.inl ⟨e, rfl, rfl, generateText_of_error h⟩⟩
  | ok functions =>
      obtain ⟨definitions, hd⟩ := continuationDefinitions_ok
      obtain ⟨hs, hs'⟩ := Destination.deliver_traced reliable
        (sequentialOps options definitions functions) (Report.total functions) s
      obtain ⟨hp, hp'⟩ := Destination.deliver_traced reliable
        (parallelOps options definitions (functions.map (Emitter.functionBlock options)))
        (Report.total functions) s
      rw [← generate_of_ok hd h] at hs hs'
      rw [← generateParallel_of_ok once hd h] at hp hp'
      have htext : generateText store options names
          = .ok (String.join (moduleChunks options definitions functions)) :=
        generateText_of_ok hd h
      have hchunks := chunks_sequentialOps options definitions functions
      rw [show sequential = _ from hs, show parallel = _ from hp, hs', hp']
      refine ⟨rfl, rfl, rfl, ?_, Or.inr ⟨definitions, functions, Report.total functions, hd, rfl,
        mapM_eq_ok_iff.mp h, rfl, hchunks, sequentialOps_eq .., parallelOps_eq .., ?_, ?_⟩⟩
      · rw [hchunks, chunks_parallelOps]
      · rw [hchunks, htext]
      · rw [hchunks, module_eq_join]

/-- A function selected twice, and its blocks rendered last one first. -/
theorem generateParallel_agrees_reversed :
    textDestination.Reliable ∧ [1, 0].Perm (List.range ["add", "add"].length)
      ∧ (generateParallel textDestination.traced
          { functions := [("add", .declare "add" 2)], names := ["add"] } {} [1, 0]
          ["add", "add"] ("", [])).2 = .ok { functions := 2, overloads := 4, aliases := 0 } := by
  have once : [1, 0].Perm (List.range ["add", "add"].length) := by decide
  refine ⟨textDestination_reliable, once, ?_⟩
  rw [(generateParallel_agrees textDestination_reliable _ {} once "").2.2.1]
  rfl

end CurriedTypings

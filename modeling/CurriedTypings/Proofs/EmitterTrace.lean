import CurriedTypings.Proofs.Emission

/-!
# The trace of an emitter

An emitter carries a level and a buffer from step to step. What a step does to the
level is said by `Step.levelAfter`, and what it writes by `Step.text`: the lines of
its part, indented as the level before the step demands (a footer is indented as the
level after it).

Taking the buffer out changes when a text is handed out, but not which. So what
steps hand out, together with what is left in the buffer, is what was in the buffer at
first and the texts of the steps, one after the other (`emitted_eq`).
-/

namespace CurriedTypings

namespace Emitter

namespace Step

/-- Only a header and a footer change the level; it does not go below zero. -/
def levelAfter (level : Nat) : Step → Nat
  | header => level + 1
  | footer => level - 1
  | _ => level

def text (options : ModuleOptions) (level : Nat) : Step → String
  | header => Line.renderAll level [headerLine options]
  | footer => Line.renderAll (level - 1) [footerLine]
  | helpers definitions => Line.renderAll level (helperLines definitions)
  | function c => Line.renderAll level (functionLines options c)
  | reexport b => Line.renderAll level (reexportLines options b)
  | module definitions functions => Line.renderAll level (moduleLines options definitions functions)
  | take => ""

/-- The texts of steps, the first of which is done at `level`. -/
def texts (options : ModuleOptions) : Nat → List Step → String
  | _, [] => ""
  | level, s :: rest => s.text options level ++ texts options (s.levelAfter level) rest

def isTake : Step → Bool
  | take => true
  | _ => false

theorem texts_filter (options : ModuleOptions) : ∀ (level : Nat) (steps : List Step),
    texts options level (steps.filter fun s => !s.isTake) = texts options level steps
  | _, [] => rfl
  | level, s :: rest => by
      cases htake : s.isTake with
      | false =>
          rw [List.filter_cons_of_pos (by rw [htake]; rfl), texts, texts, texts_filter]
      | true =>
          rw [List.filter_cons_of_neg (by rw [htake]; decide), texts_filter]
          cases s with
          | take => exact String.empty_append.symm
          | _ => cases htake

end Step

/-- All that a step does: options stay, the level goes where it has to, and what the step hands
out and leaves in the buffer are what was there and its own text. -/
theorem step_spec (e : Emitter) (s : Step) : ∃ buffer,
    (e.step s).1 = { options := e.options, level := s.levelAfter e.level, buffer }
      ∧ (e.step s).2 ++ buffer = e.buffer ++ s.text e.options e.level := by
  cases s with
  | header => exact ⟨_, header_eq_put e, String.empty_append⟩
  | footer => exact ⟨_, footer_eq_put e, String.empty_append⟩
  | helpers definitions => exact ⟨_, helpers_eq_put e definitions, String.empty_append⟩
  | function c => exact ⟨_, function_eq_put e c, String.empty_append⟩
  | reexport b => exact ⟨_, reexport_eq_put e b, String.empty_append⟩
  | module definitions functions =>
      rw [step, module_eq_put]
      exact ⟨"", rfl, String.append_empty⟩
  | take => exact ⟨"", rfl, rfl⟩

theorem step_options (e : Emitter) (s : Step) : (e.step s).1.options = e.options := by
  obtain ⟨buffer, hstep, -⟩ := e.step_spec s
  rw [hstep]

theorem step_level (e : Emitter) (s : Step) : (e.step s).1.level = s.levelAfter e.level := by
  obtain ⟨buffer, hstep, -⟩ := e.step_spec s
  rw [hstep]

theorem step_text (e : Emitter) (s : Step) :
    (e.step s).2 ++ (e.step s).1.buffer = e.buffer ++ s.text e.options e.level := by
  obtain ⟨buffer, hstep, htext⟩ := e.step_spec s
  rw [hstep]
  exact htext

theorem run_cons (e : Emitter) (s : Step) (rest : List Step) :
    e.run (s :: rest)
      = (((e.step s).1.run rest).1, (e.step s).2 :: ((e.step s).1.run rest).2) := rfl

theorem run_level (e : Emitter) (steps : List Step) :
    (e.run steps).1.level = steps.foldl Step.levelAfter e.level := by
  induction steps generalizing e with
  | nil => rfl
  | cons s rest ih => rw [run_cons, ih, step_level, List.foldl_cons]

/-- All that steps hand out, and what they leave in the buffer. -/
def emitted (e : Emitter) (steps : List Step) : String :=
  String.join (e.run steps).2 ++ (e.run steps).1.buffer

theorem emitted_eq (e : Emitter) (steps : List Step) :
    e.emitted steps = e.buffer ++ Step.texts e.options e.level steps := by
  induction steps generalizing e with
  | nil => simp [emitted, run, Step.texts]
  | cons s rest ih =>
      calc e.emitted (s :: rest)
          = (e.step s).2 ++ (e.step s).1.emitted rest := by
            simp [emitted, run_cons, String.append_assoc]
        _ = (e.step s).2 ++ (e.step s).1.buffer
              ++ Step.texts e.options (s.levelAfter e.level) rest := by
            rw [ih, step_options, step_level, String.append_assoc]
        _ = e.buffer ++ Step.texts e.options e.level (s :: rest) := by
            rw [step_text, Step.texts, String.append_assoc]

/-- A module leaves an emitter with an empty buffer as it was. -/
theorem module_of_empty {e : Emitter} (h : e.buffer = "")
    (definitions : List ContinuationDefinition) (functions : List CurriedFunction) :
    (e.module definitions functions).1 = e := by
  rw [module_eq_put]
  obtain ⟨options, level, buffer⟩ := e
  obtain rfl : buffer = "" := h
  rfl

/-- **The trace law.** A header raises the level by one, a footer lowers it by one unless it is
zero, and every other step, a whole module included, leaves it as it was. What any steps hand out,
followed by what is left in the buffer, is what was in the buffer at first, followed by the
text of each step; this text depends only on the options, the level before the step and the step.
So it makes no difference to the whole where the buffer is taken out, and an emitter with an
empty buffer that writes a module twice hands out the same text twice. -/
theorem run_trace (e : Emitter) (steps : List Step) :
    (∀ s, (e.step s).1.level = s.levelAfter e.level)
      ∧ (e.run steps).1.level = steps.foldl Step.levelAfter e.level
      ∧ String.join (e.run steps).2 ++ (e.run steps).1.buffer
          = e.buffer ++ Step.texts e.options e.level steps
      ∧ (∀ steps' : List Step,
          (steps'.filter fun s => !s.isTake) = (steps.filter fun s => !s.isTake) →
            String.join (e.run steps').2 ++ (e.run steps').1.buffer
              = String.join (e.run steps).2 ++ (e.run steps).1.buffer)
      ∧ (e.buffer = "" → ∀ definitions functions, ∃ text,
          (e.run [.module definitions functions, .module definitions functions]).2
            = [text, text]) := by
  refine ⟨step_level e, run_level e steps, emitted_eq e steps, ?_, ?_⟩
  · intro steps' htakes
    calc e.emitted steps' = e.buffer ++ Step.texts e.options e.level steps' := emitted_eq e steps'
      _ = e.buffer ++ Step.texts e.options e.level steps := by
        rw [← Step.texts_filter, htakes, Step.texts_filter]
      _ = e.emitted steps := (emitted_eq e steps).symm
  · intro hempty definitions functions
    refine ⟨(e.module definitions functions).2, ?_⟩
    rw [run_cons, step, run_cons, step, module_of_empty hempty]
    rfl

end Emitter

end CurriedTypings

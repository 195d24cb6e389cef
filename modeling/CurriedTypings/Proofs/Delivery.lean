import CurriedTypings.Generation

/-!
# What a destination is asked for

Any destination can be watched: `traced` keeps, beside its state, the list of the
operations it was asked for, and answers as before. Statements about what is
handed to a destination are statements about this list.

A reliable destination refuses nothing, so it is asked for all operations of a run
(`deliver_traced`). One that keeps bytes is reliable, and its bytes always read
back as the text that was written (`fromUTF8?_toUTF8`).
-/

namespace CurriedTypings

variable {σ : Type}

/-- The text of a write. -/
def OutputOp.text? : OutputOp → Option String
  | write text => some text
  | flush => none

/-- The texts of the writes, in order. -/
def OutputOp.chunks (ops : List OutputOp) : List String := ops.filterMap text?

namespace OutputOp

@[simp] theorem chunks_nil : chunks [] = [] := rfl

@[simp] theorem chunks_write (text : String) (ops : List OutputOp) :
    chunks (write text :: ops) = text :: chunks ops := rfl

@[simp] theorem chunks_flush (ops : List OutputOp) : chunks (flush :: ops) = chunks ops := rfl

end OutputOp

namespace Destination

/-- The same destination, watched: the operations asked for are listed in order. -/
def traced (d : Destination σ) : Destination (σ × List OutputOp) where
  write text s := (((d.write text s.1).1, s.2 ++ [.write text]), (d.write text s.1).2)
  flush s := (((d.flush s.1).1, s.2 ++ [.flush]), (d.flush s.1).2)

/-- A destination that refuses nothing. -/
structure Reliable (d : Destination σ) : Prop where
  write : ∀ text s, (d.write text s).2 = none
  flush : ∀ s, (d.flush s).2 = none

theorem Reliable.perform {d : Destination σ} (h : d.Reliable) (op : OutputOp) (s : σ) :
    (d.perform op s).2 = none := by
  cases op with
  | write text => exact h.write text s
  | flush => exact h.flush s

theorem perform_traced (d : Destination σ) (op : OutputOp) (s : σ) (log : List OutputOp) :
    d.traced.perform op (s, log) = (((d.perform op s).1, log ++ [op]), (d.perform op s).2) := by
  cases op <;> rfl

theorem performAll_cons (d : Destination σ) {op : OutputOp} {s s' : σ}
    (h : d.perform op s = (s', none)) (ops : List OutputOp) :
    d.performAll (op :: ops) s = d.performAll ops s' := by
  rw [performAll, h]

theorem performAll_cons_refused (d : Destination σ) {op : OutputOp} {s s' : σ} {reason : String}
    (h : d.perform op s = (s', some reason)) (ops : List OutputOp) :
    d.performAll (op :: ops) s = (s', some reason) := by
  rw [performAll, h]

theorem performAll_cons_eq_none_iff {d : Destination σ} {op : OutputOp} {ops : List OutputOp}
    {s s' : σ} : d.performAll (op :: ops) s = (s', none) ↔
      ∃ t, d.perform op s = (t, none) ∧ d.performAll ops t = (s', none) := by
  constructor
  · intro h
    rcases hop : d.perform op s with ⟨t, _ | reason⟩
    · rw [performAll_cons d hop] at h
      exact ⟨t, rfl, h⟩
    · rw [performAll_cons_refused d hop] at h
      cases h
  · rintro ⟨t, hop, h⟩
    rw [performAll_cons d hop, h]

/-- The list of what a destination was asked for has no influence on its answers. -/
theorem performAll_traced {d : Destination σ} {ops : List OutputOp} {s s' : σ}
    (h : d.performAll ops s = (s', none)) (log : List OutputOp) :
    d.traced.performAll ops (s, log) = ((s', log ++ ops), none) := by
  induction ops generalizing s log with
  | nil =>
      obtain rfl := (Prod.mk.inj h).1
      rw [performAll, List.append_nil]
  | cons op ops ih =>
      obtain ⟨t, hop, h⟩ := performAll_cons_eq_none_iff.mp h
      have htraced : d.traced.perform op (s, log) = ((t, log ++ [op]), none) := by
        rw [perform_traced, hop]
      rw [performAll_cons _ htraced, ih h, List.append_assoc]
      rfl

theorem Reliable.performAll {d : Destination σ} (h : d.Reliable) (ops : List OutputOp) (s : σ) :
    d.performAll ops s = ((d.performAll ops s).1, none) := by
  induction ops generalizing s with
  | nil => rfl
  | cons op ops ih =>
      have hop : d.perform op s = ((d.perform op s).1, none) := Prod.ext rfl (h.perform op s)
      rw [performAll_cons d hop]
      exact ih _

theorem deliver_eq_ok_iff {d : Destination σ} {ops : List OutputOp} {report report' : Report}
    {s s' : σ} : d.deliver ops report s = (s', .ok report') ↔
      d.performAll ops s = (s', none) ∧ report' = report := by
  rw [deliver]
  rcases d.performAll ops s with ⟨t, _ | reason⟩
  · simp [eq_comm]
  · simp

/-- A reliable destination completes a run, watched or not. -/
theorem deliver_traced {d : Destination σ} (h : d.Reliable) (ops : List OutputOp)
    (report : Report) (s : σ) :
    d.traced.deliver ops report (s, []) = (((d.performAll ops s).1, ops), .ok report)
      ∧ d.deliver ops report s = ((d.performAll ops s).1, .ok report) := by
  have hplain := h.performAll ops s
  have htraced := performAll_traced hplain []
  constructor
  · rw [deliver, htraced]
    rfl
  · rw [deliver, hplain]

end Destination

/-! ## Texts, operations and bytes -/

theorem textDestination_reliable : textDestination.Reliable := ⟨fun _ _ => rfl, fun _ => rfl⟩

/-- A destination that adds to its text what it accepts. -/
def Destination.Keeps (d : Destination String) : Prop :=
  ∀ op text text', d.perform op text = (text', none) → text' = text ++ OutputOp.writtenText [op]

theorem Destination.Keeps.performAll {d : Destination String} (keeps : d.Keeps)
    {ops : List OutputOp} {text text' : String} (h : d.performAll ops text = (text', none)) :
    text' = text ++ OutputOp.writtenText ops := by
  induction ops generalizing text with
  | nil =>
      obtain rfl := (Prod.mk.inj h).1
      exact String.append_empty.symm
  | cons op ops ih =>
      obtain ⟨next, hop, h⟩ := performAll_cons_eq_none_iff.mp h
      rw [ih h, keeps op text next hop]
      cases op <;> simp [OutputOp.writtenText, String.append_assoc]

theorem performAll_opDestination (ops done : List OutputOp) :
    opDestination.performAll ops done = (done ++ ops, none) := by
  induction ops generalizing done with
  | nil => rw [Destination.performAll, List.append_nil]
  | cons op ops ih =>
      have hop : opDestination.perform op done = (done ++ [op], none) := by cases op <;> rfl
      rw [Destination.performAll_cons _ hop, ih, List.append_assoc]
      rfl

theorem performAll_byteDestination :
    ∀ (ops : List OutputOp) (written : String),
      byteDestination.performAll ops written.toUTF8
        = ((written ++ String.join (OutputOp.chunks ops)).toUTF8, none)
  | [], written => by simp [Destination.performAll]
  | .write text :: ops, written => by
      have hop : byteDestination.perform (.write text) written.toUTF8
          = ((written ++ text).toUTF8, none) := by
        simp [Destination.perform, byteDestination]
      rw [Destination.performAll_cons _ hop, performAll_byteDestination ops (written ++ text)]
      simp [String.append_assoc]
  | .flush :: ops, written => by
      have hop : byteDestination.perform .flush written.toUTF8 = (written.toUTF8, none) := rfl
      rw [Destination.performAll_cons _ hop, performAll_byteDestination ops written,
        OutputOp.chunks_flush]

/-- The bytes of a text are the bytes of no other, and always valid. -/
theorem fromUTF8?_toUTF8 (s : String) : String.fromUTF8? s.toUTF8 = some s := by
  have hvalid : s.toByteArray.IsValidUTF8 := s.isValidUTF8
  simp [String.fromUTF8?, String.fromUTF8, hvalid]

end CurriedTypings

/-!
# Lists without repetitions

Alias lists, generic parameter lists and the variables of a type are all kept
free of repetitions in the order of first occurrence. `addNew` extends such a
list one member at a time, as a loop over the candidates would; `distinct` says
what the result is: the members of the list, each at its first occurrence.
-/

namespace CurriedTypings

variable {α : Type} [DecidableEq α]

/-- `xs` with `a` at its end, unless `a` is already a member. -/
def insertNew (xs : List α) (a : α) : List α :=
  if a ∈ xs then xs else xs ++ [a]

/-- `xs` followed by the members of `ys` that it does not hold yet, each once. -/
def addNew (xs ys : List α) : List α :=
  ys.foldl insertNew xs

/-- The members of a list, each kept at its first occurrence only. -/
def distinct : List α → List α
  | [] => []
  | a :: as => a :: (distinct as).filter (· ≠ a)

theorem insertNew_of_mem {xs : List α} {a : α} (h : a ∈ xs) : insertNew xs a = xs := by
  simp [insertNew, h]

theorem insertNew_of_not_mem {xs : List α} {a : α} (h : a ∉ xs) :
    insertNew xs a = xs ++ [a] := by
  simp [insertNew, h]

@[simp] theorem addNew_nil (xs : List α) : addNew xs [] = xs := rfl

theorem addNew_cons (xs ys : List α) (a : α) :
    addNew xs (a :: ys) = addNew (insertNew xs a) ys := rfl

/-- Adding two lists one after the other is adding their concatenation. -/
theorem addNew_append (xs ys zs : List α) :
    addNew xs (ys ++ zs) = addNew (addNew xs ys) zs := by
  simp [addNew, List.foldl_append]

/-- Nothing changes if all members are there already. -/
theorem addNew_of_subset {xs ys : List α} (h : ys ⊆ xs) : addNew xs ys = xs := by
  induction ys with
  | nil => rfl
  | cons a ys ih =>
    obtain ⟨ha, hys⟩ := List.cons_subset.mp h
    rw [addNew_cons, insertNew_of_mem ha, ih hys]

theorem mem_distinct {a : α} {xs : List α} : a ∈ distinct xs ↔ a ∈ xs := by
  induction xs with
  | nil => simp [distinct]
  | cons x xs ih =>
    by_cases h : a = x <;> simp [distinct, h, ih]

/-- Adding members to a list is appending those it does not hold yet, at their first
occurrences. -/
theorem addNew_eq_append (xs ys : List α) :
    addNew xs ys = xs ++ (distinct ys).filter (· ∉ xs) := by
  induction ys generalizing xs with
  | nil => simp [distinct]
  | cons a ys ih =>
    rw [addNew_cons, ih, distinct]
    by_cases ha : a ∈ xs
    · have hskip : ∀ b, (decide (b ∉ xs) && decide (b ≠ a)) = decide (b ∉ xs) := by
        intro b
        by_cases hb : b = a <;> simp [hb, ha]
      simp only [insertNew_of_mem ha, List.filter_cons, ha, List.filter_filter, hskip]
      simp
    · have hboth : ∀ b, (decide (b ∉ xs) && decide (b ≠ a)) = decide (b ∉ xs ++ [a]) := by
        intro b
        simp [not_or]
      simp only [insertNew_of_not_mem ha, List.filter_cons, ha, List.filter_filter, hboth]
      simp

theorem mem_addNew {a : α} {xs ys : List α} : a ∈ addNew xs ys ↔ a ∈ xs ∨ a ∈ ys := by
  rw [addNew_eq_append, List.mem_append, List.mem_filter, mem_distinct]
  by_cases ha : a ∈ xs <;> simp [ha]

/-- Adding the same members again changes nothing. -/
theorem addNew_addNew_self (xs ys : List α) : addNew (addNew xs ys) ys = addNew xs ys :=
  addNew_of_subset fun _ ha => mem_addNew.mpr (.inr ha)

theorem addNew_nil_left (xs : List α) : addNew [] xs = distinct xs := by
  simp [addNew_eq_append]

/-- A list stays free of repetitions as long as what goes to its end is new. -/
theorem nodup_append_singleton {α : Type} {xs : List α} {a : α} :
    (xs ++ [a]).Nodup ↔ xs.Nodup ∧ a ∉ xs := by
  rw [List.nodup_append]
  constructor
  · rintro ⟨hxs, -, hne⟩
    exact ⟨hxs, fun ha => hne a ha a (List.mem_singleton_self a) rfl⟩
  · rintro ⟨hxs, ha⟩
    refine ⟨hxs, List.pairwise_singleton .., fun b hb c hc heq => ha ?_⟩
    rw [← List.mem_singleton.mp hc, ← heq]
    exact hb

theorem nodup_insertNew {xs : List α} (h : xs.Nodup) (a : α) : (insertNew xs a).Nodup := by
  by_cases ha : a ∈ xs
  · rwa [insertNew_of_mem ha]
  · rw [insertNew_of_not_mem ha]
    exact nodup_append_singleton.mpr ⟨h, ha⟩

theorem nodup_addNew {xs : List α} (h : xs.Nodup) (ys : List α) : (addNew xs ys).Nodup := by
  induction ys generalizing xs with
  | nil => exact h
  | cons a ys ih => exact ih (nodup_insertNew h a)

theorem nodup_distinct (xs : List α) : (distinct xs).Nodup := by
  induction xs with
  | nil => simp [distinct]
  | cons x xs ih =>
    simp only [distinct, List.nodup_cons, List.mem_filter]
    exact ⟨by simp, ih.filter _⟩

/-- A list in which nothing is repeated stays as it is. -/
theorem distinct_of_nodup {xs : List α} (h : xs.Nodup) : distinct xs = xs := by
  induction xs with
  | nil => rfl
  | cons x xs ih =>
    obtain ⟨hx, hxs⟩ := List.nodup_cons.mp h
    rw [distinct, ih hxs, List.filter_eq_self.mpr]
    intro y hy
    exact decide_eq_true fun hyx => hx (hyx ▸ hy)

/-- Members are kept in the order of their first occurrences. -/
theorem pairwise_distinct (xs : List α) :
    (distinct xs).Pairwise fun a b => xs.idxOf a < xs.idxOf b := by
  induction xs with
  | nil => exact List.Pairwise.nil
  | cons x xs ih =>
    have hnext : ∀ {a}, a ∈ (distinct xs).filter (· ≠ x) →
        (x :: xs).idxOf a = xs.idxOf a + 1 := by
      intro a ha
      have hne : a ≠ x := of_decide_eq_true (List.mem_filter.mp ha).2
      rw [List.idxOf_cons, beq_false_of_ne hne.symm, cond_false]
    refine List.pairwise_cons.mpr ⟨fun b hb => ?_, ?_⟩
    · rw [List.idxOf_cons_self, hnext hb]
      exact Nat.zero_lt_succ _
    · refine (ih.filter _).imp_of_mem fun ha hb hab => ?_
      rw [hnext ha, hnext hb]
      exact Nat.succ_lt_succ hab

end CurriedTypings

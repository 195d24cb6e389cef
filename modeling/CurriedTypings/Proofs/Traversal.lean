import Mathlib.Data.List.Forall2

/-!
# Loops that stop at the first failure

Looking up, planning and checking are loops over a list that give up at the first
element that fails. Four facts about such loops carry everything that is said of
them later:

- a traversal succeeds exactly when it succeeds on every element
  (`mapM_eq_ok_iff`);
- otherwise there is a first element that fails, and its failure is that of the
  traversal (`mapM_cases`, `mapM_eq_error_iff`);
- an invariant of the part of the list already done, kept by every successful step,
  holds at the end of a successful fold (`foldlM_invariant`);
- a fold fails at an element up to which it succeeds (`foldlM_eq_error_iff`).
-/

namespace CurriedTypings

variable {ε α β γ : Type}

theorem bind_ok (a : α) (f : α → Except ε β) : (Except.ok a >>= f) = f a := rfl

theorem bind_error (e : ε) (f : α → Except ε β) : (Except.error e >>= f) = .error e := rfl

theorem bind_eq_ok_iff {x : Except ε α} {f : α → Except ε β} {b : β} :
    (x >>= f) = .ok b ↔ ∃ a, x = .ok a ∧ f a = .ok b := by
  cases x with
  | error e => simp [bind_error]
  | ok a => simp [bind_ok]

theorem bind_eq_error_iff {x : Except ε α} {f : α → Except ε β} {e : ε} :
    (x >>= f) = .error e ↔ x = .error e ∨ ∃ a, x = .ok a ∧ f a = .error e := by
  cases x with
  | error e' => simp [bind_error]
  | ok a => simp [bind_ok]

theorem mapM_eq_ok_iff {f : α → Except ε β} :
    ∀ {xs : List α} {ys : List β},
      xs.mapM f = .ok ys ↔ List.Forall₂ (fun x y => f x = .ok y) xs ys
  | [], ys => by
      rw [List.mapM_nil, List.forall₂_nil_left_iff]
      exact ⟨fun h => (Except.ok.inj h).symm, fun h => h ▸ rfl⟩
  | x :: xs, ys => by
      rw [List.mapM_cons, bind_eq_ok_iff, List.forall₂_cons_left_iff]
      constructor
      · rintro ⟨y, hy, h⟩
        obtain ⟨rest, hrest, h⟩ := bind_eq_ok_iff.mp h
        exact ⟨y, rest, hy, mapM_eq_ok_iff.mp hrest, (Except.ok.inj h).symm⟩
      · rintro ⟨y, rest, hy, hrest, rfl⟩
        exact ⟨y, hy, bind_eq_ok_iff.mpr ⟨rest, mapM_eq_ok_iff.mpr hrest, rfl⟩⟩

/-- What results have in common with their elements, the lists have in common. -/
theorem map_eq_map_of_mapM {f : α → Except ε β} {p : β → γ} {q : α → γ} {xs : List α} {ys : List β}
    (h : xs.mapM f = .ok ys) (same : ∀ x y, f x = .ok y → p y = q x) : ys.map p = xs.map q := by
  rw [← List.forall₂_eq_eq_eq, List.forall₂_map_left_iff, List.forall₂_map_right_iff]
  exact (mapM_eq_ok_iff.mp h).flip.imp fun y x hx => same x y hx

/-- Every result is that of some element. -/
theorem exists_of_mem_mapM {f : α → Except ε β} {b : β} : ∀ {xs : List α} {ys : List β},
    xs.mapM f = .ok ys → b ∈ ys → ∃ x ∈ xs, f x = .ok b
  | [], ys, h, hb => by
      obtain rfl := Except.ok.inj h
      cases hb
  | x :: xs, ys, h, hb => by
      rw [List.mapM_cons, bind_eq_ok_iff] at h
      obtain ⟨y, hy, h⟩ := h
      obtain ⟨rest, hrest, h⟩ := bind_eq_ok_iff.mp h
      obtain rfl := Except.ok.inj h
      rcases List.mem_cons.mp hb with rfl | hb
      · exact ⟨x, List.mem_cons_self .., hy⟩
      · obtain ⟨z, hz, hresult⟩ := exists_of_mem_mapM hrest hb
        exact ⟨z, List.mem_cons_of_mem _ hz, hresult⟩

theorem mapM_ok_of_forall {f : α → Except ε β} :
    ∀ {xs : List α}, (∀ x ∈ xs, ∃ y, f x = .ok y) → ∃ ys, xs.mapM f = .ok ys
  | [], _ => ⟨[], rfl⟩
  | x :: xs, h => by
      obtain ⟨y, hy⟩ := h x (List.mem_cons_self ..)
      obtain ⟨ys, hys⟩ := mapM_ok_of_forall fun z hz => h z (List.mem_cons_of_mem _ hz)
      exact ⟨y :: ys, by rw [List.mapM_cons, hy, bind_ok, hys]; rfl⟩

/-- Either every element succeeds, or there is a first one that fails. -/
theorem mapM_cases (f : α → Except ε β) :
    ∀ xs : List α, (∃ ys, xs.mapM f = .ok ys ∧ ∀ x ∈ xs, ∃ y, f x = .ok y) ∨
      ∃ before x after e, xs = before ++ x :: after ∧ (∀ y ∈ before, ∃ b, f y = .ok b)
        ∧ f x = .error e ∧ xs.mapM f = .error e
  | [] => Or.inl ⟨[], rfl, by simp⟩
  | x :: xs => by
      cases hx : f x with
      | error e =>
          have hfirst : (x :: xs).mapM f = .error e := by rw [List.mapM_cons, hx, bind_error]
          exact Or.inr ⟨[], x, xs, e, rfl, by simp, hx, hfirst⟩
      | ok y =>
          have hcons : ∀ {l : List α}, (∀ z ∈ l, ∃ b, f z = .ok b) →
              ∀ z ∈ x :: l, ∃ b, f z = .ok b := by
            intro l hl z hz
            rcases List.mem_cons.mp hz with rfl | hz
            · exact ⟨y, hx⟩
            · exact hl z hz
          rw [List.mapM_cons, hx, bind_ok]
          rcases mapM_cases f xs with ⟨ys, hys, hall⟩ | ⟨before, z, after, e, rfl, hb, hz, he⟩
          · exact Or.inl ⟨y :: ys, by rw [hys, bind_ok]; rfl, hcons hall⟩
          · exact Or.inr ⟨x :: before, z, after, e, rfl, hcons hb, hz, by rw [he, bind_error]⟩

/-- A traversal fails exactly as the first element that fails. -/
theorem mapM_eq_error_iff {f : α → Except ε β} {xs : List α} {e : ε} :
    xs.mapM f = .error e ↔ ∃ before x after, xs = before ++ x :: after
      ∧ (∀ y ∈ before, ∃ b, f y = .ok b) ∧ f x = .error e := by
  constructor
  · intro h
    rcases mapM_cases f xs with ⟨ys, hys, -⟩ | ⟨before, x, after, e', hxs, hbefore, hx, he⟩
    · exact nomatch hys.symm.trans h
    · obtain rfl := Except.error.inj (he.symm.trans h)
      exact ⟨before, x, after, hxs, hbefore, hx⟩
  · intro ⟨before, x, after, hxs, hbefore, hx⟩
    obtain ⟨ys, hys⟩ := mapM_ok_of_forall hbefore
    rw [hxs, List.mapM_append, hys, bind_ok, List.mapM_cons, hx]
    rfl

/-- What is done to every result may be done to all results in the end. -/
theorem mapM_map_result (f : α → Except ε β) (g : β → γ) :
    ∀ xs : List α, xs.mapM (fun x => (f x).map g) = (xs.mapM f).map (List.map g)
  | [] => rfl
  | x :: xs => by
      rw [List.mapM_cons, List.mapM_cons, mapM_map_result f g xs]
      cases f x with
      | error e => rfl
      | ok b => cases xs.mapM f <;> rfl

theorem foldlM_invariant_from {f : γ → α → Except ε γ} {P : List α → γ → Prop}
    (step : ∀ done x s s', P done s → f s x = .ok s' → P (done ++ [x]) s') :
    ∀ {xs done : List α} {s s' : γ}, P done s → xs.foldlM f s = .ok s' → P (done ++ xs) s'
  | [], done, s, s', hs, h => by
      rw [List.foldlM_nil] at h
      obtain rfl := Except.ok.inj h
      rwa [List.append_nil]
  | x :: xs, done, s, s', hs, h => by
      rw [List.foldlM_cons] at h
      obtain ⟨t, ht, h⟩ := bind_eq_ok_iff.mp h
      have := foldlM_invariant_from step (step done x s t hs ht) h
      rwa [List.append_assoc] at this

/-- The invariant speaks of the part of the list that has been done. -/
theorem foldlM_invariant {f : γ → α → Except ε γ} {P : List α → γ → Prop} {xs : List α}
    {s s' : γ} (step : ∀ done x s s', P done s → f s x = .ok s' → P (done ++ [x]) s')
    (start : P [] s) (h : xs.foldlM f s = .ok s') : P xs s' :=
  foldlM_invariant_from step start h

/-- A fold fails exactly where an element fails after those before it have been folded. -/
theorem foldlM_eq_error_iff {f : γ → α → Except ε γ} {e : ε} : ∀ {xs : List α} {s : γ},
    xs.foldlM f s = .error e ↔ ∃ before x after t, xs = before ++ x :: after
      ∧ before.foldlM f s = .ok t ∧ f t x = .error e
  | [], s => by
      constructor
      · nofun
      · rintro ⟨before, x, after, t, hxs, -⟩
        simp at hxs
  | y :: xs, s => by
      constructor
      · intro h
        rw [List.foldlM_cons] at h
        rcases bind_eq_error_iff.mp h with hy | ⟨t, hy, h⟩
        · exact ⟨[], y, xs, s, rfl, rfl, hy⟩
        · obtain ⟨before, x, after, u, rfl, hbefore, hx⟩ := foldlM_eq_error_iff.mp h
          exact ⟨y :: before, x, after, u, rfl, by rw [List.foldlM_cons, hy, bind_ok, hbefore], hx⟩
      · rintro ⟨before, x, after, t, hxs, hbefore, hx⟩
        rw [hxs, List.foldlM_append, hbefore, bind_ok, List.foldlM_cons, hx, bind_error]

end CurriedTypings

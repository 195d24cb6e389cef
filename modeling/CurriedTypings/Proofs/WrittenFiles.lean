import CurriedTypings.CommandLine.Run
import CurriedTypings.Proofs.Delivery
import CurriedTypings.Proofs.Traversal

/-!
# What a write leaves behind

A file is written in two steps, the directories above it and then its text, and either
may fail. Neither changes anything but what it is about: directories are created only
where nothing was (`Session.Grows`), and the text goes to one location
(`FileTree.Written`). Afterwards the path reads as the text, unless it leads to a device,
which keeps nothing.

The location a path leads to is found by following directories, and a written location
is none. So writing to it does not change where any path leads (`follow_put`).
-/

namespace CurriedTypings.CommandLine

namespace FileTree

variable {t t' : FileTree} {l location : List String} {node : Node} {path text : String}

/-! ## One location -/

theorem lookup_cons (l' : List String) (n : Node) (rest : List (List String × Node))
    (l : List String) :
    ((l', n) :: rest).lookup l = if l = l' then some n else rest.lookup l := by
  by_cases h : l = l'
  · subst h
    simp
  · rw [List.lookup_cons, beq_false_of_ne h, if_neg h]

theorem lookup_replace (location : List String) (node : Node) (l : List String) :
    ∀ entries : List (List String × Node), (put.replace location node entries).lookup l
      = if l = location then some node else entries.lookup l
  | [] => lookup_cons ..
  | (l', n) :: rest => by
      rw [put.replace]
      by_cases hl' : l' = location
      · rw [if_pos hl', lookup_cons, lookup_cons, hl']
        split <;> rfl
      · rw [if_neg hl', lookup_cons, lookup_cons, lookup_replace location node l rest]
        by_cases h : l = l'
        · subst h
          rw [if_pos rfl, if_neg hl', if_pos rfl]
        · rw [if_neg h, if_neg h]

/-- What is at the other locations stays. -/
theorem node?_put_of_ne (h : l ≠ location) : (t.put location node).node? l = t.node? l := by
  simp only [node?, put, lookup_replace, if_neg h]

theorem node?_put_self (h : t.node? location ≠ some .directory) :
    (t.put location node).node? location = some node := by
  rw [node?] at h ⊢
  split at h
  · exact absurd rfl h
  · rename_i hnot
    simp [put, lookup_replace, hnot]

theorem follow_cons_of_ok {name : String} {rest result : List String}
    (h : t.follow l (name :: rest) = .ok result) : t.node? l = some .directory := by
  rw [follow] at h
  split at h
  · cases h
  · cases h
  · cases h
  · assumption

/-- A way that leads somewhere passes only directories, so it does not pass the new node. -/
theorem follow_put (h : t.node? location ≠ some .directory) {names result : List String}
    (hfollow : t.follow l names = .ok result) :
    (t.put location node).follow l names = .ok result := by
  induction names generalizing l with
  | nil => exact hfollow
  | cons name rest ih =>
      have hdirectory := follow_cons_of_ok hfollow
      have hne : l ≠ location := by
        rintro rfl
        exact h hdirectory
      rw [follow, hdirectory] at hfollow
      rw [follow, node?_put_of_ne hne, hdirectory]
      simp only at hfollow ⊢
      split_ifs at hfollow ⊢
      · exact ih hfollow
      · exact ih hfollow
      · exact ih hfollow

/-! ## Writing and creating -/

/-- A path leads to a device. -/
def LeadsToDevice (t : FileTree) (path : String) : Prop :=
  ∃ location hasRoom, t.locate path = .ok location ∧ t.node? location = some (.device hasRoom)

/-- At a location is what was there before, or a directory where nothing was. -/
def GrowsAt (before after : FileTree) (l : List String) : Prop :=
  after.node? l = before.node? l ∨ (before.node? l = none ∧ after.node? l = some .directory)

theorem GrowsAt.trans {t u v : FileTree} (h : GrowsAt t u l) (h' : GrowsAt u v l) :
    GrowsAt t v l := by
  rcases h with h | ⟨hnone, hdirectory⟩
  · rcases h' with h' | ⟨hnone, hdirectory⟩
    · exact Or.inl (h'.trans h)
    · exact Or.inr ⟨h ▸ hnone, hdirectory⟩
  · rcases h' with h' | ⟨hnone', -⟩
    · exact Or.inr ⟨hnone, h'.trans hdirectory⟩
    · rw [hdirectory] at hnone'
      cases hnone'

/-- A path has been written. It reads as the text unless it leads to a device, and at all other
locations nothing but directories are new. -/
structure Written (before : FileTree) (path text : String) (after : FileTree) : Prop where
  reads : after.readText path = .ok text ∨ after.LeadsToDevice path
  others : ∀ l, after.locate path ≠ .ok l → GrowsAt before after l

theorem locate_put (h : t.node? location ≠ some .directory)
    (hlocate : t.locate path = .ok location) :
    (t.put location node).locate path = .ok location := by
  rw [locate, bind_eq_ok_iff] at hlocate ⊢
  obtain ⟨u, hcheck, hfollow⟩ := hlocate
  exact ⟨u, hcheck, follow_put h hfollow⟩

theorem writeText_cases (h : t.writeText path text = .ok t') :
    ∃ location, t.locate path = .ok location
      ∧ ((t' = t ∧ ∃ hasRoom, t.node? location = some (.device hasRoom))
        ∨ (t' = t.put location (.file text.toUTF8) ∧ t.node? location ≠ some .directory)) := by
  rw [writeText, bind_eq_ok_iff] at h
  obtain ⟨u, hcheck, h⟩ := h
  split at h
  · obtain ⟨-, -, h⟩ := bind_eq_ok_iff.mp h
    cases h
  · obtain ⟨location, hfollow, h⟩ := bind_eq_ok_iff.mp h
    refine ⟨location, by rw [locate, hcheck, bind_ok, hfollow], ?_⟩
    split at h
    · cases h
    · rename_i hasRoom hdevice
      split at h
      · exact Or.inl ⟨(Except.ok.inj h).symm, hasRoom, hdevice⟩
      · cases h
    · rename_i hnot _
      exact Or.inr ⟨(Except.ok.inj h).symm, hnot⟩

theorem written_of_writeText (h : t.writeText path text = .ok t') : Written t path text t' := by
  obtain ⟨location, hlocate, ⟨rfl, hasRoom, hdevice⟩ | ⟨rfl, hnot⟩⟩ := writeText_cases h
  · exact ⟨Or.inr ⟨location, hasRoom, hlocate, hdevice⟩, fun _ _ => Or.inl rfl⟩
  · have hlocate' : (t.put location (.file text.toUTF8)).locate path = .ok location :=
      locate_put hnot hlocate
    refine ⟨Or.inl ?_, fun l hl => Or.inl (node?_put_of_ne ?_)⟩
    · rw [readText, hlocate', bind_ok, node?_put_self hnot]
      simp only [fromUTF8?_toUTF8]
    · rintro rfl
      exact hl hlocate'

theorem growsAt_of_createDirectory (h : t.createDirectory path = .ok t') (l : List String) :
    GrowsAt t t' l := by
  rw [createDirectory, bind_eq_ok_iff] at h
  obtain ⟨location, -, h⟩ := h
  split at h
  · cases h
  · rename_i hnone
    obtain rfl := Except.ok.inj h
    by_cases hl : l = location
    · subst hl
      exact Or.inr ⟨hnone, node?_put_self (by rw [hnone]; nofun)⟩
    · exact Or.inl (node?_put_of_ne hl)

theorem Written.of_grows {u : FileTree} (grows : ∀ l, GrowsAt t u l) (h : Written u path text t') :
    Written t path text t' :=
  ⟨h.reads, fun l hl => (grows l).trans (h.others l hl)⟩

end FileTree

/-! ## Sessions -/

namespace Session

variable {s s' : Session} {d : Destination String} {α β : Type}

/-- Nothing has changed but that there are new directories. -/
structure Grows (s s' : Session) : Prop where
  stdout : s'.stdout = s.stdout
  files : ∀ l, FileTree.GrowsAt s.files s'.files l

theorem Grows.refl (s : Session) : s.Grows s := ⟨rfl, fun _ => Or.inl rfl⟩

theorem Grows.trans {s'' : Session} (h : s.Grows s') (h' : s'.Grows s'') : s.Grows s'' :=
  ⟨h'.stdout.trans h.stdout, fun l => (h.files l).trans (h'.files l)⟩

/-- An action that at most creates directories. -/
def OnlyGrows (x : StateM Session α) : Prop := ∀ s : Session, s.Grows (x s).2

theorem OnlyGrows.pure (a : α) : OnlyGrows (pure a) := Grows.refl

theorem OnlyGrows.bind {x : StateM Session α} {f : α → StateM Session β} (hx : OnlyGrows x)
    (hf : ∀ a, OnlyGrows (f a)) : OnlyGrows (x >>= f) :=
  fun s => (hx s).trans (hf (x s).1 (x s).2)

theorem onlyGrows_createDirectory (path : String) :
    OnlyGrows ((systemWith d).createDirectory path) := by
  intro s
  simp only [systemWith, changeFiles]
  cases h : s.files.createDirectory path with
  | error e => exact Grows.refl s
  | ok files => exact ⟨rfl, FileTree.growsAt_of_createDirectory h⟩

theorem onlyGrows_unlessDirectory (path : String) (result : Except FileError Unit) :
    OnlyGrows ((systemWith d).unlessDirectory path result) := by
  cases result with
  | ok _ => exact .pure _
  | error e => exact OnlyGrows.bind Grows.refl fun _ => .pure _

theorem onlyGrows_createLineage :
    ∀ paths : List String, OnlyGrows ((systemWith d).createLineage paths)
  | [] => .pure _
  | path :: above => by
      refine (onlyGrows_createDirectory path).bind fun result => ?_
      split
      · refine (onlyGrows_createLineage above).bind fun result => ?_
        split
        · exact (onlyGrows_createDirectory path).bind fun result =>
            onlyGrows_unlessDirectory path result
        · exact .pure _
      · exact onlyGrows_unlessDirectory path _

theorem bind_apply (x : StateM Session α) (f : α → StateM Session β) (s : Session) :
    (x >>= f) s = f (x s).1 (x s).2 := rfl

/-- A file that could be written is written, and a failure leaves at most new directories. -/
theorem writeFile_cases {path text : String} {result : Except Failure Unit}
    (h : writeFile (systemWith d) path text s = (result, s')) :
    (result = .ok () ∧ s'.stdout = s.stdout ∧ FileTree.Written s.files path text s'.files)
      ∨ ∃ context e, result = .error ⟨[context], .other e⟩ ∧ s.Grows s' := by
  have hgrows : OnlyGrows ((systemWith d).createDirectories ((Path.parent? path).getD "")) :=
    onlyGrows_createLineage _
  specialize hgrows s
  rw [writeFile, bind_apply] at h
  rcases hcreate : (systemWith d).createDirectories ((Path.parent? path).getD "") s with
    ⟨_ | _, middle⟩
  · rename_i e
    rw [hcreate] at h hgrows
    obtain ⟨rfl, rfl⟩ := Prod.mk.inj h
    exact Or.inr ⟨_, _, rfl, hgrows⟩
  · rw [hcreate] at h hgrows
    cases hwrite : middle.files.writeText path text with
    | error e =>
        have hfailed : (systemWith d).writeText path text middle = (.error e, middle) := by
          simp only [systemWith, changeFiles, hwrite]
        simp only [bind_apply, hfailed] at h
        obtain ⟨rfl, rfl⟩ := Prod.mk.inj h
        exact Or.inr ⟨_, _, rfl, hgrows⟩
    | ok files =>
        have hdone : (systemWith d).writeText path text middle
            = (.ok (), { middle with files }) := by
          simp only [systemWith, changeFiles, hwrite]
        simp only [bind_apply, hdone] at h
        obtain ⟨rfl, rfl⟩ := Prod.mk.inj h
        exact Or.inl ⟨rfl, hgrows.stdout,
          (FileTree.written_of_writeText hwrite).of_grows hgrows.files⟩

/-- Printing is what the destination behind the standard output makes of it. -/
theorem printAll_eq (ops : List OutputOp) (s : Session) :
    (systemWith d).printAll ops s = match d.performAll ops s.stdout with
      | (stdout, none) => (.ok (), { s with stdout })
      | (stdout, some reason) => (.error (.other reason), { s with stdout }) := by
  induction ops generalizing s with
  | nil => rfl
  | cons op ops ih =>
      rw [System.printAll, bind_apply]
      rcases hop : d.perform op s.stdout with ⟨stdout, _ | reason⟩
      · have hprint : (systemWith d).print op s = (.ok (), { s with stdout }) := by
          simp only [systemWith, print, hop]
        rw [Destination.performAll_cons d hop, hprint]
        exact ih _
      · have hprint : (systemWith d).print op s = (.error (.other reason), { s with stdout }) := by
          simp only [systemWith, print, hop]
        rw [Destination.performAll_cons_refused d hop, hprint]
        rfl

end Session

end CurriedTypings.CommandLine

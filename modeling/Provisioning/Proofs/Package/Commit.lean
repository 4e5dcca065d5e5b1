import Provisioning.Package

/-!
# Additions as changes in place

An addition may fail when the name is looked at, when the thing is made and when the names of its
tasks are looked at.  The first change is made after all that, and no change fails.

* `Package.undergo_bind` : one thing done after another to a package;
* `Package.undergo_commit_eq_ok_iff` : what the package is when tasks were put in;
* `Package.undergo_add_of_error` : no change precedes what fails.
-/

namespace Provisioning

namespace Package

variable {p p' : Package} {name template : String} {made : Except CompileError (List Task)}

/-! ### One thing after another -/

section

variable {α β : Type}

/-- What is done second is done to what the first left, unless that failed. -/
theorem undergo_bind (c : Change α) (f : α → Change β) : p.undergo (c >>= f) =
    match p.undergo c with
    | (p', .error e) => (p', .error e)
    | (p', .ok a) => p'.undergo (f a) := by
  simp only [undergo, ExceptT.run_bind, StateT.run_bind]
  rcases c.run.run p with ⟨_ | _, _⟩ <;> rfl

@[simp] theorem undergo_pure (a : α) : p.undergo (pure a) = (p, .ok a) := rfl

@[simp] theorem undergo_get_bind (f : Package → Change α) :
    p.undergo (get >>= f) = p.undergo (f p) := rfl

@[simp] theorem undergo_lift_bind (r : Except CompileError α) (f : α → Change β) :
    p.undergo (liftM r >>= f) =
      match r with
      | .error e => (p, .error e)
      | .ok a => p.undergo (f a) := by
  cases r <;> rfl

end

/-! ### Names and tasks -/

theorem undergo_refuseTaken (t : Task) : p.undergo (refuseTaken t) =
    (p, if p.fullNames.contains t.name then .error (.duplicateName t.name) else .ok ()) := by
  rw [refuseTaken, undergo_get_bind]
  split <;> rfl

/-- Looking at the names of tasks changes nothing; the first that is taken is told. -/
theorem undergo_forM_refuseTaken (tasks : List Task) : p.undergo (forM tasks refuseTaken) =
    (p, match tasks.find? fun t => p.fullNames.contains t.name with
      | some t => .error (.duplicateName t.name)
      | none => .ok ()) := by
  induction tasks with
  | nil => rfl
  | cons t tasks ih =>
    rw [List.forM_cons, undergo_bind, undergo_refuseTaken, List.find?_cons]
    cases p.fullNames.contains t.name with
    | true => rfl
    | false => exact ih

/-- The package with tasks added under a name. -/
def extend (p : Package) (name : String) (tasks : List Task) : Package :=
  { p with
    siblings := p.siblings ++ [name]
    fullNames := p.fullNames ++ tasks.map Task.name
    tasks := p.tasks ++ tasks }

/-- Tasks that are put in one after another are all in, and so are their names. -/
theorem undergo_forM_push (tasks : List Task) :
    p.undergo (forM tasks fun t => do
      takeFullName t.name
      push t) =
    ({ p with
      fullNames := p.fullNames ++ tasks.map Task.name
      tasks := p.tasks ++ tasks }, .ok ()) := by
  induction tasks generalizing p with
  | nil => simp [List.forM_nil]
  | cons t tasks ih =>
    have hfirst : p.undergo (do takeFullName t.name; push t) =
        ({ p with fullNames := p.fullNames ++ [t.name], tasks := p.tasks ++ [t] }, .ok ()) := rfl
    rw [List.forM_cons, undergo_bind, hfirst]
    simp [ih]

theorem undergo_commit_error (name : String) (e : CompileError) :
    p.undergo (commit name (.error e)) = (p, .error e) := rfl

/-- Tasks are put in as a whole, or nothing is changed. -/
theorem undergo_commit_ok (name : String) (tasks : List Task) :
    p.undergo (commit name (.ok tasks)) =
      match tasks.find? fun t => p.fullNames.contains t.name with
      | some t => (p, .error (.duplicateName t.name))
      | none => (p.extend name tasks, .ok ()) := by
  have hlift : p.undergo (commit name (.ok tasks)) = p.undergo (do
      forM tasks refuseTaken
      takeSibling name
      forM tasks fun t => do
        takeFullName t.name
        push t) := rfl
  rw [hlift, undergo_bind, undergo_forM_refuseTaken]
  cases tasks.find? fun t => p.fullNames.contains t.name with
  | some t => rfl
  | none => exact undergo_forM_push tasks

theorem undergo_commit_eq_ok_iff : p.undergo (commit name made) = (p', .ok ()) ↔
    ∃ tasks, made = .ok tasks ∧ (∀ t ∈ tasks, t.name ∉ p.fullNames) ∧
      p' = p.extend name tasks := by
  cases made with
  | error e => simp [undergo_commit_error]
  | ok tasks =>
    rw [undergo_commit_ok]
    cases htaken : tasks.find? fun t => p.fullNames.contains t.name with
    | some t =>
      have hmem : t.name ∈ p.fullNames := by simpa using List.find?_some htaken
      simp only [Prod.mk.injEq, reduceCtorEq, and_false, Except.ok.injEq, exists_eq_left',
        false_iff, not_and]
      intro hnew
      exact absurd hmem (hnew t (List.mem_of_find?_eq_some htaken))
    | none =>
      have hnew : ∀ t ∈ tasks, t.name ∉ p.fullNames := by
        simpa [List.find?_eq_none] using htaken
      simp only [Prod.mk.injEq, and_true, Except.ok.injEq, exists_eq_left']
      exact ⟨fun h => ⟨hnew, h.symm⟩, fun h => h.2.symm⟩

/-! ### Additions -/

/-- An addition looks at the name first. -/
theorem undergo_add (template : String) (tasks : String → Except CompileError (List Task)) :
    p.undergo (add template tasks) =
      match p.freshName template with
      | .error e => (p, .error e)
      | .ok name => p.undergo (commit name (tasks name)) := by
  rw [add, undergo_get_bind, undergo_lift_bind]
  cases p.freshName template <;> rfl

/-- No change precedes what fails. -/
theorem undergo_commit_of_error {e : CompileError}
    (h : (p.undergo (commit name made)).2 = .error e) : (p.undergo (commit name made)).1 = p := by
  cases made with
  | error e => rfl
  | ok tasks =>
    rw [undergo_commit_ok] at h ⊢
    cases htaken : tasks.find? fun t => p.fullNames.contains t.name with
    | some t => rfl
    | none => simp only [htaken, reduceCtorEq] at h

/-- So what cannot be added leaves no trace. -/
theorem undergo_add_of_error {tasks : String → Except CompileError (List Task)} {e : CompileError}
    (h : (p.undergo (add template tasks)).2 = .error e) :
    (p.undergo (add template tasks)).1 = p := by
  rw [undergo_add] at h ⊢
  cases hname : p.freshName template with
  | error e => rfl
  | ok name =>
    rw [hname] at h
    exact undergo_commit_of_error h

end Package

end Provisioning

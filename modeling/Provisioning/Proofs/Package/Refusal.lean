import Provisioning.Proofs.Package.Shape

/-!
# Things that cannot be added

A thing that cannot be added to a package leaves the package as it was, also if it is a package
itself to which many tasks were added before it failed.  So a program goes on as if it had never
tried: the additions that are refused can be taken out of it, and out of all programs in it.

* `Package.attempt_of_error` : what cannot be added leaves no trace;
* `Build.run_add` : every addition of a program is such an attempt;
* `Build.run_prune` : without the refused additions a program ends with the same package and
  result;
* `Build.outcomes_prune` : and all that is left in it comes to the same;
* `Build.refusals_leave_no_trace` : all of it, for every program and package.
-/

namespace Provisioning

section

variable {σ ν : Type} (c : Compiler σ)

/-! ### Attempts -/

/-- The package after an attempt to add a thing, and the result. -/
def Package.attempt (p : Package) (template : String) (entry : Build.Entry σ ν) :
    Package × Except CompileError Unit :=
  ((Build.add template entry fun result _ => .done result).run c p).2

theorem Package.attempt_eq (p : Package) (template : String) (entry : Build.Entry σ ν) :
    p.attempt c template entry =
      p.undergo (add template fun name => (entry.tasks c p name).2) := by
  rw [attempt, Build.run, undergo_add]
  cases hname : p.freshName template with
  | error e => rfl
  | ok name => rfl

/-- What cannot be added leaves no trace. -/
theorem Package.attempt_of_error {p : Package} {template : String} {entry : Build.Entry σ ν}
    {e : CompileError} (h : (p.attempt c template entry).2 = .error e) :
    (p.attempt c template entry).1 = p := by
  rw [attempt_eq] at h ⊢
  exact undergo_add_of_error h

/-- An addition is an attempt; after it the program knows the result and the tasks of the
package. -/
theorem Build.run_add (template : String) (entry : Build.Entry σ ν)
    (next : Except CompileError Unit → List Task → Build σ ν) (p : Package) :
    ((Build.add template entry next).run c p).2 =
      ((next (p.attempt c template entry).2 (p.attempt c template entry).1.tasks).run c
        (p.attempt c template entry).1).2 := by
  rw [run, Package.attempt_eq, Package.undergo_add]
  cases hname : p.freshName template with
  | error e => rfl
  | ok name => rfl

end

/-! ### Outcomes -/

/-- One operation of a program that was run, and what it came to. -/
inductive Build.Outcome (ν : Type) where
  /-- Something was noted down. -/
  | note (n : ν)
  /-- A thing was to be added.  After this result the package had these tasks; in the thing all
  this happened. -/
  | add (template : String) (result : Except CompileError Unit) (tasks : List Task)
    (inside : List (Build.Outcome ν))

namespace Build.Outcome

variable {ν : Type}

/-- What was noted down, on all levels. -/
def notes : List (Outcome ν) → List ν
  | [] => []
  | .note n :: rest => n :: notes rest
  | .add _ _ _ inside :: rest => notes inside ++ notes rest

/-- The outcomes without the additions that were refused, on all levels. -/
def accepted : List (Outcome ν) → List (Outcome ν)
  | [] => []
  | .note n :: rest => .note n :: accepted rest
  | .add _ (.error _) _ _ :: rest => accepted rest
  | .add template (.ok u) tasks inside :: rest =>
    .add template (.ok u) tasks (accepted inside) :: accepted rest

end Build.Outcome

section

variable {σ ν : Type} (c : Compiler σ)

mutual

/-- What the operations of a program come to, in order. -/
def Build.outcomes : Build σ ν → Package → List (Build.Outcome ν)
  | .done _, _ => []
  | .note n next, p => .note n :: next.outcomes p
  | .add template entry next, p =>
    let (p', result) := p.attempt c template entry
    .add template result p'.tasks (entry.outcomes p template) ::
      (next result p'.tasks).outcomes p'

/-- What happens in a thing that is to be added to a package. -/
def Build.Entry.outcomes : Build.Entry σ ν → Package → String → List (Build.Outcome ν)
  | .task _, _, _ => []
  | .package fields build, p, template =>
    match p.freshName template, c.validate fields with
    | .ok _, .ok fields => (build fields).outcomes (.empty (c.reference fields) c.rounds)
    | _, _ => []

end

mutual

/-- The notes of a run are those of its operations. -/
theorem Build.notes_outcomes : (build : Build σ ν) → (p : Package) →
    Outcome.notes (build.outcomes c p) = (build.run c p).1
  | .done _, _ => by
    rw [outcomes, Outcome.notes, run]
  | .note _ next, p => by
    rw [outcomes, Outcome.notes, next.notes_outcomes p, run]
  | .add template entry next, p => by
    have hentry := entry.notes_outcomes p template
    rw [outcomes, Outcome.notes, hentry, Build.notes_outcomes, run, Package.attempt_eq,
      Package.undergo_add]
    cases hname : p.freshName template with
    | error e => rfl
    | ok name => rfl

theorem Build.Entry.notes_outcomes : (entry : Build.Entry σ ν) → (p : Package) →
    (template : String) → Outcome.notes (entry.outcomes c p template) =
      match p.freshName template with
      | .error _ => []
      | .ok name => (entry.tasks c p name).1
  | .task commands, p, template => by
    rw [Build.Entry.outcomes, Outcome.notes]
    cases hname : p.freshName template with
    | error e => rfl
    | ok name => rfl
  | .package fields build, p, template => by
    rw [Build.Entry.outcomes]
    cases hname : p.freshName template with
    | error e => simp only [Outcome.notes]
    | ok name =>
      cases hfields : c.validate fields with
      | error e => simp only [Build.Entry.tasks, hfields, Outcome.notes]
      | ok fields' =>
        simp only [Build.Entry.tasks, hfields]
        exact (build fields').notes_outcomes _

end

/-! ### Programs without refused additions -/

mutual

/-- A program without the additions that are refused when it fills a package.  It goes on as it
did after the refusal. -/
def Build.prune : Build σ ν → Package → Build σ ν
  | .done result, _ => .done result
  | .note n next, p => .note n (next.prune p)
  | .add template entry next, p =>
    match p.attempt c template entry with
    | (_, .error e) => (next (.error e) p.tasks).prune p
    | (p', .ok ()) => .add template entry.prune fun result tasks => (next result tasks).prune p'

/-- A thing without the additions that are refused in it. -/
def Build.Entry.prune : Build.Entry σ ν → Build.Entry σ ν
  | .task commands => .task commands
  | .package fields build => .package fields fun fields =>
    (build fields).prune (.empty (c.reference fields) c.rounds)

end

/-- Things of which the same tasks come may be taken for each other. -/
theorem Package.attempt_congr {p : Package} {template : String} {entry entry' : Build.Entry σ ν}
    (h : ∀ name, (entry'.tasks c p name).2 = (entry.tasks c p name).2) :
    p.attempt c template entry' = p.attempt c template entry := by
  simp only [attempt_eq, h]

/-- A refused attempt in full: the package and the error. -/
theorem Package.attempt_eq_error {p p' : Package} {template : String} {entry : Build.Entry σ ν}
    {e : CompileError} (h : p.attempt c template entry = (p', .error e)) : p' = p := by
  simpa [h] using p.attempt_of_error c (congrArg Prod.snd h)

mutual

/-- Without the refused additions a program ends with the same package and the same result. -/
theorem Build.run_prune : (build : Build σ ν) → (p : Package) →
    ((build.prune c p).run c p).2 = (build.run c p).2
  | .done _, _ => rfl
  | .note _ next, p => next.run_prune p
  | .add template entry next, p => by
    rw [prune, run_add]
    split
    · next p' e h =>
      -- The program goes on with the package as it was before the refusal.
      obtain rfl := Package.attempt_eq_error c h
      rw [h]
      exact (next _ _).run_prune p'
    · next p' h =>
      rw [run_add, Package.attempt_congr c (entry.tasks_prune p), h]
      exact (next _ _).run_prune p'

/-- The same tasks come of a thing without the additions that are refused in it. -/
theorem Build.Entry.tasks_prune : (entry : Build.Entry σ ν) → (p : Package) → (name : String) →
    ((entry.prune c).tasks c p name).2 = (entry.tasks c p name).2
  | .task _, _, _ => rfl
  | .package fields build, p, name => by
    rw [Build.Entry.prune, Build.Entry.tasks, Build.Entry.tasks]
    split
    · rfl
    · next fields' _ =>
      simp only [(build fields').run_prune]

end

theorem Package.attempt_prune (p : Package) (template : String) (entry : Build.Entry σ ν) :
    p.attempt c template (entry.prune c) = p.attempt c template entry :=
  attempt_congr c (entry.tasks_prune c p)

mutual

/-- All operations that are left come to what they came to before. -/
theorem Build.outcomes_prune : (build : Build σ ν) → (p : Package) →
    (build.prune c p).outcomes c p = Outcome.accepted (build.outcomes c p)
  | .done _, _ => by
    rw [prune, outcomes, Outcome.accepted]
  | .note n next, p => by
    rw [prune, outcomes, outcomes, Outcome.accepted, next.outcomes_prune p]
  | .add template entry next, p => by
    rw [prune, outcomes]
    split
    · next p' e h =>
      obtain rfl := Package.attempt_eq_error c h
      simp only [h, Outcome.accepted]
      exact (next _ _).outcomes_prune p'
    · next p' h =>
      simp only [outcomes, p.attempt_prune, h, Outcome.accepted, entry.outcomes_prune,
        (next _ _).outcomes_prune]

theorem Build.Entry.outcomes_prune : (entry : Build.Entry σ ν) → (p : Package) →
    (template : String) →
    (entry.prune c).outcomes c p template = Outcome.accepted (entry.outcomes c p template)
  | .task _, _, _ => by
    simp only [Build.Entry.prune, Build.Entry.outcomes, Outcome.accepted]
  | .package fields build, p, template => by
    rw [Build.Entry.prune, Build.Entry.outcomes, Build.Entry.outcomes]
    split
    · next fields' _ _ => exact (build fields').outcomes_prune _
    · rw [Outcome.accepted]

end

/-- What cannot be added leaves no trace in a package, whatever it is and however far it came.  So
without the refused additions, in packages inside it as well, a program ends with the same package
and the same result, and all operations that are left come to what they came to before; an
outermost package has the same tasks. -/
theorem Build.refusals_leave_no_trace :
    (∀ (p : Package) (template : String) (entry : Build.Entry σ ν) (e : CompileError),
      (p.attempt c template entry).2 = .error e → (p.attempt c template entry).1 = p) ∧
    (∀ (build : Build σ ν) (p : Package),
      ((build.prune c p).run c p).2 = (build.run c p).2 ∧
      (build.prune c p).outcomes c p = Outcome.accepted (build.outcomes c p)) ∧
    ∀ (fields : σ) (build : σ → Build σ ν),
      (c.compile fields fun fields =>
        (build fields).prune c (.empty (c.reference fields) c.rounds)).2 =
      (c.compile fields build).2 := by
  refine ⟨fun p template entry e h => p.attempt_of_error c h,
    fun build p => ⟨build.run_prune c p, build.outcomes_prune c p⟩, fun fields build => ?_⟩
  rw [Compiler.compile, Compiler.compile]
  cases hfields : c.validate fields with
  | error e => rfl
  | ok fields' => simp only [(build fields').run_prune]

end

/-- A package with two tasks under one name. -/
def Build.Entry.stumbling : Build.Entry Unit Unit :=
  .package () fun _ => .add "a" (.task (.ok [.shell "echo 1"])) fun _ _ =>
    .add "a" (.task (.ok [.shell "echo 2"])) fun r _ => .done r

/-- The first of the two tasks is gone with the package. -/
theorem Build.stumbling_leaves_no_trace :
    let p : Package := ⟨fun _ => none, 8, ["c"], ["c"], [⟨"c", []⟩]⟩
    (p.attempt Compiler.plain "b" Entry.stumbling).2 = .error (.duplicateName "a") ∧
      (p.attempt Compiler.plain "b" Entry.stumbling).1 = p := by
  intro p
  have h : (p.attempt Compiler.plain "b" Entry.stumbling).2 = .error (.duplicateName "a") := by
    decide +kernel
  exact ⟨h, (Build.refusals_leave_no_trace Compiler.plain).1 p "b" Entry.stumbling _ h⟩

end Provisioning

import Provisioning.Proofs.Package.Commit

/-!
# Structural errors

That something has not the form of a task or of a package is said by the program that adds it.
Rendering names, making tasks of commands and putting them into packages fail for other reasons, so
a program that makes no structural error itself ends without one (`Build.supported_run`).
-/

namespace Provisioning

/-- A result that is no structural error. -/
def Supported {α : Type} (r : Except CompileError α) : Prop :=
  ∀ name fault, r ≠ .error (.unsupported name fault)

namespace Supported

variable {α β ε : Type} {r : Except CompileError α}

theorem ok (a : α) : Supported (.ok a) := by simp [Supported]

theorem error_iff {e : CompileError} :
    Supported (.error e : Except CompileError α) ↔ ∀ name fault, e ≠ .unsupported name fault := by
  simp [Supported]

theorem of_error {e : CompileError} (h : Supported r) (he : r = .error e) :
    Supported (.error e : Except CompileError β) :=
  error_iff.2 (error_iff.1 (he ▸ h))

theorem bind {f : α → Except CompileError β} (h : Supported r)
    (hf : ∀ a, r = .ok a → Supported (f a)) : Supported (r >>= f) := by
  cases r with
  | error e => exact h.of_error rfl
  | ok a => exact hf a rfl

theorem map (f : α → β) (h : Supported r) : Supported (r.map f) := by
  cases r with
  | error e => exact h.of_error rfl
  | ok a => exact ok (f a)

theorem mapError {r : Except ε α} {f : ε → CompileError}
    (hf : ∀ e name fault, f e ≠ .unsupported name fault) : Supported (r.mapError f) := by
  cases r with
  | error e => exact error_iff.2 (hf e)
  | ok a => exact ok a

theorem mapM {f : β → Except CompileError α} {bs : List β} (hf : ∀ b ∈ bs, Supported (f b)) :
    Supported (bs.mapM f) := by
  induction bs with
  | nil => exact ok []
  | cons b bs ih =>
    rw [List.mapM_cons]
    rw [List.forall_mem_cons] at hf
    exact hf.1.bind fun a _ => (ih hf.2).bind fun as _ => ok (a :: as)

end Supported

/-! ### Names, commands and packages -/

theorem Action.supported_ofCommand (render : String → Except Template.Error String)
    (task : String) (index : Nat) (command : Command) :
    Supported (Action.ofCommand render task index command) := by
  rw [ofCommand]
  split
  · exact Supported.error_iff.2 (by simp)
  · split
    · exact Supported.error_iff.2 (by simp)
    · exact .ok _

theorem Action.supported_ofCommands (render : String → Except Template.Error String)
    (task : String) (index : Nat) (commands : List Command) :
    Supported (Action.ofCommands render task index commands) := by
  induction commands generalizing index with
  | nil => exact .ok []
  | cons command commands ih =>
    exact (supported_ofCommand render task index command).bind fun action _ =>
      (ih (index + 1)).bind fun actions _ => .ok (action :: actions)

namespace Package

variable (p : Package)

theorem supported_render (template : String) : Supported (p.render template) :=
  .mapError (by simp)

theorem supported_freshName (template : String) : Supported (p.freshName template) := by
  rw [freshName]
  refine (p.supported_render template).bind fun name _ => ?_
  cases nameFault? name with
  | some fault => exact Supported.error_iff.2 (by simp)
  | none =>
    by_cases h : p.siblings.contains name
    · simp only [h, if_true]
      exact Supported.error_iff.2 (by simp)
    · simp only [h]
      exact .ok name

theorem supported_commit (name : String) {made : Except CompileError (List Task)}
    (h : Supported made) : Supported (p.undergo (commit name made)).2 := by
  cases made with
  | error e => exact h.of_error rfl
  | ok tasks =>
    rw [undergo_commit_ok]
    split
    · exact Supported.error_iff.2 (by simp)
    · exact .ok ()

end Package

/-! ### Programs -/

section

variable {σ ν : Type} (c : Compiler σ)

mutual

/-- A program that makes no structural error itself. -/
def Build.Supported : Build σ ν → Prop
  | .done result => Provisioning.Supported result
  | .note _ next => next.Supported
  | .add _ entry next =>
    entry.Supported ∧
      ∀ result tasks, Provisioning.Supported result → (next result tasks).Supported

/-- A thing whose programs make no structural error themselves. -/
def Build.Entry.Supported : Build.Entry σ ν → Prop
  | .task commands => Provisioning.Supported commands
  | .package _ build => ∀ fields, (build fields).Supported

end

mutual

/-- A program that makes no structural error itself ends without one. -/
theorem Build.supported_run : (build : Build σ ν) → build.Supported → (p : Package) →
    Provisioning.Supported (build.run c p).2.2
  | .done _, h, _ => h
  | .note _ next, h, p => next.supported_run h p
  | .add template entry next, h, p => by
    rw [run]
    cases hname : p.freshName template with
    | error e =>
      refine (next _ _).supported_run (h.2 _ _ ?_) p
      exact (p.supported_freshName template).of_error hname
    | ok name =>
      have hadded := p.supported_commit name (entry.supported_tasks h.1 p name)
      exact (next _ _).supported_run (h.2 _ _ hadded) _

theorem Build.Entry.supported_tasks : (entry : Build.Entry σ ν) → entry.Supported →
    (p : Package) → (name : String) → Provisioning.Supported (entry.tasks c p name).2
  | .task commands, h, p, name => by
    rw [Build.Entry.tasks]
    refine Provisioning.Supported.bind h fun commands _ => ?_
    refine .bind ?_ fun task _ => .ok [task]
    exact (Action.supported_ofCommands p.expand name 0 commands).bind fun _ _ => .ok _
  | .package fields build, h, p, name => by
    rw [Build.Entry.tasks]
    split
    · exact Supported.error_iff.2 (by simp)
    · next fields' _ =>
      exact ((build fields').supported_run (h fields') _).map _

end

/-- So does the compilation of a package that it fills. -/
theorem Compiler.supported_compile (fields : σ) {build : σ → Build σ ν}
    (h : ∀ fields, (build fields).Supported) : Supported (c.compile fields build).2 := by
  rw [compile]
  split
  · exact Supported.error_iff.2 (by simp)
  · next fields' _ => exact ((build fields').supported_run c (h fields') _).map _

end

end Provisioning

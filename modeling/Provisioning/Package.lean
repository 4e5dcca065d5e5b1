import Provisioning.Task

/-!
# Packages

A package collects tasks.  Each thing added to it has a name of its own in the package; the tasks
that come of it have names of their own among all tasks of the package.  A package is changed in
place (`Package.Change`), so that an error undoes nothing: that what cannot be added leaves no trace
is due to the order in which an addition looks at the package and changes it.

A `Build` is a program that fills a package: it adds things one after another and may look at what
became of each.  A thing is a list of commands or a package again, with fields that its templates
refer to and a program that fills it.
-/

namespace Provisioning

theorem bind_eq_ok_iff {ε α β : Type} {r : Except ε α} {f : α → Except ε β} {b : β} :
    r >>= f = .ok b ↔ ∃ a, r = .ok a ∧ f a = .ok b := by
  cases r with
  | error e => simp [bind, Except.bind]
  | ok a => simp [bind, Except.bind]

/-- Why a name is refused; none if it is not. -/
def nameFault? (name : String) : Option NameFault :=
  let cs := name.toList
  if cs.isEmpty then some .empty
  else if cs.any Text.isBlank then some .blank
  else if cs.contains '/' then some .slash
  else if cs.head? == some '.' || cs.getLast? == some '.' then some .outerDot
  else none

/-- Tasks under way. -/
structure Package where
  /-- What the templates of the package refer to. -/
  reference : Template.Reference
  /-- How often a template may be expanded. -/
  rounds : Nat
  /-- The names of the things added, in order. -/
  siblings : List String
  /-- The full names that are taken, in order. -/
  fullNames : List String
  /-- The tasks that came of the things added, in order. -/
  tasks : List Task

namespace Package

/-- A package to which nothing was added. -/
def empty (reference : Template.Reference) (rounds : Nat) : Package :=
  ⟨reference, rounds, [], [], []⟩

/-- Expands a template against the package. -/
def expand (p : Package) (template : String) : Except Template.Error String :=
  Template.render p.reference p.rounds template

/-- Expands a template against the package; an error names the template. -/
def render (p : Package) (template : String) : Except CompileError String :=
  (p.expand template).mapError (.render template)

/-- The name that a template stands for, if it can be the next in the package. -/
def freshName (p : Package) (template : String) : Except CompileError String := do
  let name ← p.render template
  if let some fault := nameFault? name then throw (.invalidName name fault)
  if p.siblings.contains name then throw (.duplicateName name)
  return name

/-! ### Changes in place -/

/-- Something that is done to a package.  What was changed before an error stays changed. -/
abbrev Change := ExceptT CompileError (StateM Package)

/-- Takes the name of a thing. -/
def takeSibling (name : String) : Change Unit :=
  modify fun p => { p with siblings := p.siblings ++ [name] }

/-- Takes the full name of a task. -/
def takeFullName (name : String) : Change Unit :=
  modify fun p => { p with fullNames := p.fullNames ++ [name] }

/-- Puts in a task. -/
def push (t : Task) : Change Unit :=
  modify fun p => { p with tasks := p.tasks ++ [t] }

/-- Refuses a task whose full name is taken. -/
def refuseTaken (t : Task) : Change Unit := do
  if (← get).fullNames.contains t.name then throw (.duplicateName t.name)

/-- Puts in, under a name, what came of a thing, if anything did and no task is refused. -/
def commit (name : String) (made : Except CompileError (List Task)) : Change Unit := do
  let tasks ← made
  forM tasks refuseTaken
  takeSibling name
  forM tasks fun t => do
    takeFullName t.name
    push t

/-- Adds what `tasks` makes of the name that a template stands for. -/
def add (template : String) (tasks : String → Except CompileError (List Task)) : Change Unit := do
  let name ← (← get).freshName template
  commit name (tasks name)

/-- The package after something was done to it, and the result. -/
def undergo {α : Type} (p : Package) (c : Change α) : Package × Except CompileError α :=
  (c.run.run p).swap

end Package

/-- Puts a package's name before the names of its tasks. -/
def Task.below (package : String) (t : Task) : Task :=
  { t with name := package ++ "." ++ t.name }

/-! ### Programs that fill packages -/

mutual

/-- A program that fills a package.  `σ` holds the fields of packages; `ν` is what the program may
note down on its way. -/
inductive Build (σ ν : Type) where
  /-- The end, with what became of the package. -/
  | done (result : Except CompileError Unit)
  /-- Notes something down and goes on. -/
  | note (n : ν) (next : Build σ ν)
  /-- Adds a thing under a name and goes on, knowing the result and the tasks of the package. -/
  | add (name : String) (entry : Build.Entry σ ν)
      (next : Except CompileError Unit → List Task → Build σ ν)

/-- A thing that can be added to a package. -/
inductive Build.Entry (σ ν : Type) where
  /-- The commands of a task, if there are any. -/
  | task (commands : Except CompileError (List Command))
  /-- A package with fields, and the program that fills it once they are validated. -/
  | package (fields : σ) (build : σ → Build σ ν)

end

/-- How packages are compiled. -/
structure Compiler (σ : Type) where
  /-- The values of a package's fields. -/
  reference : σ → Template.Reference
  /-- Applies defaults and enforces constraints. -/
  validate : σ → Except Field.Violation σ
  /-- How often a template may be expanded. -/
  rounds : Nat := 8

mutual

/-- Runs a program on a package.  Gives its notes, the package and the result. -/
def Build.run {σ ν : Type} (c : Compiler σ) :
    Build σ ν → Package → List ν × Package × Except CompileError Unit
  | .done result, p => ([], p, result)
  | .note n next, p =>
    let (notes, p', result) := next.run c p
    (n :: notes, p', result)
  | .add template entry next, p =>
    match p.freshName template with
    | .error e => (next (.error e) p.tasks).run c p
    | .ok name =>
      let (notes, made) := entry.tasks c p name
      let (p', added) := p.undergo (Package.commit name made)
      let (notes', p'', result) := (next added p'.tasks).run c p'
      (notes ++ notes', p'', result)

/-- The tasks of a thing added to a package under a name, with the notes taken on the way. -/
def Build.Entry.tasks {σ ν : Type} (c : Compiler σ) :
    Build.Entry σ ν → Package → String → List ν × Except CompileError (List Task)
  | .task commands, p, name =>
    ([], do
      let task ← Task.ofCommands p.expand name (← commands)
      return [task])
  | .package fields build, _, name =>
    match c.validate fields with
    | .error e => ([], .error (.validation name e))
    | .ok fields =>
      let (notes, p, result) := (build fields).run c (.empty (c.reference fields) c.rounds)
      (notes, result.map fun _ => p.tasks.map (Task.below name))

end

/-- Compiles the outermost package: notes taken on the way, and the tasks or why there are none. -/
def Compiler.compile {σ ν : Type} (c : Compiler σ) (fields : σ) (build : σ → Build σ ν) :
    List ν × Except CompileError (List Task) :=
  match c.validate fields with
  | .error e => ([], .error (.validation "root" e))
  | .ok fields =>
    let (notes, p, result) := (build fields).run c (.empty (c.reference fields) c.rounds)
    (notes, result.map fun _ => p.tasks)

/-- The compiler for parameters under their schemas. -/
def Compiler.forParams (rounds : Nat) : Compiler Field.Params where
  reference := Field.Params.get?
  validate p :=
    match Field.validate p with
    | (p, .ok ()) => .ok p
    | (_, .error e) => .error e
  rounds := rounds

end Provisioning

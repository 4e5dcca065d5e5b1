import Provisioning.Proofs.Cache.Store
import Provisioning.Proofs.Digest.Stream
import Provisioning.Proofs.Package.Compile

/-!
# The shape of compiled tasks

What a program adds to a package makes a forest: tasks are its leaves, packages its inner nodes,
siblings stand in the order in which they were added, and what could not be added is not there
(`Build.forest`).  The tasks of the package are those of the forest:

* `Build.tasks_run` : they stand depth first, each under the names of the packages around it;
* `Task.streams_growing` : the byte streams of a task whose scripts are not empty grow;
* `Compiler.shape_of_compile` : everything that holds of compiled tasks (`Shape`).
-/

namespace Provisioning

/-! ### What was added -/

/-- A thing that was added to a package, under the name that its template stands for. -/
inductive Added where
  /-- A task with its actions. -/
  | task (name : String) (actions : List Action)
  /-- A package with what was added to it, in order. -/
  | package (name : String) (things : List Added)

mutual

/-- The tasks of a thing inside packages, whose names are given from the outermost on. -/
def Added.tasks (above : List String) : Added → List Task
  | .task name actions => [⟨Text.join "." (above ++ [name]), actions⟩]
  | .package name things => Added.tasksOf (above ++ [name]) things

/-- The tasks of things inside packages, depth first. -/
def Added.tasksOf (above : List String) : List Added → List Task
  | [] => []
  | thing :: things => thing.tasks above ++ Added.tasksOf above things

end

theorem Added.tasksOf_eq (above : List String) (things : List Added) :
    tasksOf above things = things.flatMap (tasks above) := by
  induction things with
  | nil => rfl
  | cons thing things ih => rw [tasksOf, ih, List.flatMap_cons]

mutual

/-- One more package around a thing puts its name before those of the tasks. -/
theorem Added.tasks_cons (package : String) : (above : List String) → (thing : Added) →
    thing.tasks (package :: above) = (thing.tasks above).map (Task.below package)
  | above, .task name actions => by
    have hne : above ++ [name] ≠ [] := by simp
    simp only [tasks, List.map_cons, List.map_nil, Task.below, Text.join, List.cons_append]
    rw [String.intercalate_cons_of_ne_nil hne]
  | above, .package name things => by
    rw [tasks, tasks, List.cons_append, tasksOf_cons package (above ++ [name]) things]

theorem Added.tasksOf_cons (package : String) : (above : List String) → (things : List Added) →
    tasksOf (package :: above) things = (tasksOf above things).map (Task.below package)
  | _, [] => rfl
  | above, thing :: things => by
    rw [tasksOf, tasksOf, List.map_append, thing.tasks_cons package above,
      tasksOf_cons package above things]

end

/-! ### The forest of a program -/

section

variable {σ ν : Type} (c : Compiler σ)

mutual

/-- What a program adds to a package, in order. -/
def Build.forest : Build σ ν → Package → List Added
  | .done _, _ => []
  | .note _ next, p => next.forest p
  | .add template entry next, p =>
    match p.freshName template with
    | .error e => (next (.error e) p.tasks).forest p
    | .ok name =>
      match p.undergo (Package.commit name (entry.tasks c p name).2) with
      | (p', .error e) => (next (.error e) p'.tasks).forest p'
      | (p', .ok ()) => entry.added p name :: (next (.ok ()) p'.tasks).forest p'

/-- What is added with a thing under a name. -/
def Build.Entry.added : Build.Entry σ ν → Package → String → Added
  | .task commands, p, name =>
    .task name <| match commands.bind (Task.ofCommands p.expand name) with
      | .error _ => []
      | .ok task => task.actions
  | .package fields build, _, name =>
    .package name <| match c.validate fields with
      | .error _ => []
      | .ok fields => (build fields).forest (.empty (c.reference fields) c.rounds)

end

/-- What is added to an outermost package. -/
def Compiler.forest (fields : σ) (build : σ → Build σ ν) : List Added :=
  match c.validate fields with
  | .error _ => []
  | .ok fields => (build fields).forest c (.empty (c.reference fields) c.rounds)

theorem Task.eq_of_ofCommands {render : String → Except Template.Error String} {name : String}
    {commands : List Command} {task : Task} (h : Task.ofCommands render name commands = .ok task) :
    task.name = name := by
  rw [ofCommands] at h
  obtain ⟨actions, -, h⟩ := bind_eq_ok_iff.1 h
  obtain rfl := Except.ok.inj h
  rfl

mutual

/-- A program puts the tasks of its forest after those of the package. -/
theorem Build.tasks_run : (build : Build σ ν) → (p : Package) →
    (build.run c p).2.1.tasks = p.tasks ++ Added.tasksOf [] (build.forest c p)
  | .done _, p => (List.append_nil p.tasks).symm
  | .note _ next, p => next.tasks_run p
  | .add template entry next, p => by
    rw [run, forest]
    cases hname : p.freshName template with
    | error e => exact (next _ _).tasks_run p
    | ok name =>
      simp only
      rcases hcommit : p.undergo (Package.commit name (entry.tasks c p name).2) with ⟨p', e | u⟩
      · obtain rfl : p' = p := by
          simpa [hcommit] using p.undergo_commit_of_error (congrArg Prod.snd hcommit)
        exact (next _ _).tasks_run p'
      · obtain ⟨made, hmade, -, rfl⟩ := Package.undergo_commit_eq_ok_iff.1 hcommit
        refine ((next _ _).tasks_run _).trans ?_
        rw [Added.tasksOf, ← List.append_assoc, ← entry.tasks_added p hmade, Package.extend]

/-- A thing has the tasks of what is added with it. -/
theorem Build.Entry.tasks_added : (entry : Build.Entry σ ν) → (p : Package) → {name : String} →
    {made : List Task} → (entry.tasks c p name).2 = .ok made →
    made = (entry.added c p name).tasks []
  | .task commands, p, name, made, h => by
    rw [Build.Entry.tasks] at h
    cases commands with
    | error e => simp [bind, Except.bind] at h
    | ok commands =>
      cases ht : Task.ofCommands p.expand name commands with
      | error e => simp [ht, bind, Except.bind] at h
      | ok task =>
        simp only [ht, bind, Except.bind, pure, Except.pure, Except.ok.injEq] at h
        obtain rfl := Task.eq_of_ofCommands ht
        rw [← h]
        simp [Build.Entry.added, Except.bind, ht, Added.tasks, Text.join]
  | .package fields build, p, name, made, h => by
    obtain ⟨made, hmade, rfl⟩ := (Build.Entry.tasks_package_eq_ok_iff c).1 h
    obtain ⟨fields', q, hfields, hran, rfl⟩ := c.compile_eq_ok_iff.1 hmade
    have hrun := (build fields').tasks_run (.empty (c.reference fields') c.rounds)
    rw [hran] at hrun
    rw [hrun]
    simp only [Build.Entry.added, hfields, Added.tasks, List.nil_append, Package.empty]
    rw [Added.tasksOf_cons]

end

theorem Compiler.tasks_compile {fields : σ} {build : σ → Build σ ν} {tasks : List Task}
    (h : (c.compile fields build).2 = .ok tasks) :
    tasks = (c.forest fields build).flatMap (Added.tasks []) := by
  rw [← Added.tasksOf_eq]
  obtain ⟨fields', p, hfields, hran, rfl⟩ := c.compile_eq_ok_iff.1 h
  have hrun := (build fields').tasks_run c (.empty (c.reference fields') c.rounds)
  rw [hran] at hrun
  simpa [forest, hfields, Package.empty] using hrun

end

/-! ### The shape -/

/-- Of two byte streams of a task whose scripts are not empty the later one goes on after the
earlier one. -/
theorem Task.streams_growing {t : Task} (h : ∀ s ∈ t.scripts, s ≠ "") :
    t.streams.Pairwise fun a b => a <+: b ∧ a ≠ b := by
  rw [List.pairwise_iff_getElem]
  intro i j hi hj hij
  rw [t.getElem_streams, t.getElem_streams]
  have hj' : j + 1 ≤ t.scripts.length := by simp at hj ⊢; omega
  constructor
  · have hle : i + 1 ≤ j + 1 := by omega
    obtain ⟨rest, hrest⟩ : t.scripts.take (i + 1) <+: t.scripts.take (j + 1) :=
      List.take_prefix_take_left hle
    exact ⟨streamOf rest, by rw [← hrest, streamOf, streamOf, streamOf, List.flatMap_append]⟩
  · intro he
    have hlt := length_join_take_lt h (Nat.add_lt_add_right hij 1) hj'
    rw [join_eq_of_streamOf_eq he] at hlt
    exact absurd hlt (Nat.lt_irrefl _)

/-- What holds of the tasks that come of the things added to an outermost package. -/
structure Shape (things : List Added) (tasks : List Task) : Prop where
  /-- Tasks have names of their own. -/
  names : (tasks.map Task.name).Nodup
  /-- No name is empty. -/
  name_ne : ∀ t ∈ tasks, t.name ≠ ""
  /-- There is no blank and no slash in a name. -/
  chars : ∀ t ∈ tasks, ∀ ch ∈ t.name.toList, Text.isBlank ch = false ∧ ch ≠ '/'
  /-- No name begins or ends with a dot. -/
  dots : ∀ t ∈ tasks, t.name.toList.head? ≠ some '.' ∧ t.name.toList.getLast? ≠ some '.'
  /-- Tasks have cache directories of their own, directly below the root. -/
  dirs : ∀ root, (tasks.map fun t => Cache.taskDir root t.name).Nodup ∧
    ∀ t ∈ tasks, ∃ part, part ≠ [] ∧ '/' ∉ part ∧
      (Cache.taskDir root t.name).toList = Cache.bareRoot root ++ '/' :: part
  /-- The tasks stand depth first in the order of declaration, each under its own name after the
  names of the packages around it. -/
  order : tasks = things.flatMap (Added.tasks [])
  /-- There is a character in every script that is not blank. -/
  scripts : ∀ t ∈ tasks, ∀ s ∈ t.scripts, ∃ ch ∈ s.toList, Text.isBlank ch = false
  /-- The byte streams of a task grow. -/
  streams : ∀ t ∈ tasks, t.streams.Pairwise fun a b => a <+: b ∧ a ≠ b

theorem Compiled.nodup_taskDir {tasks : List Task} (h : Compiled tasks) (root : String) :
    (tasks.map fun t => Cache.taskDir root t.name).Nodup := by
  have hn := h.names
  rw [List.nodup_iff_pairwise_ne, List.pairwise_map] at hn ⊢
  refine hn.imp fun hne he => hne ?_
  have hlist := congrArg String.toList he
  simp only [Cache.toList_taskDir, List.append_cancel_left_eq, List.cons.injEq, true_and] at hlist
  exact String.toList_inj.1 hlist

/-- Whatever programs fill the packages, and however names are rendered and fields validated: if an
outermost package can be compiled, its tasks have this shape. -/
theorem Compiler.shape_of_compile {σ ν : Type} (c : Compiler σ) {fields : σ}
    {build : σ → Build σ ν} {tasks : List Task} (h : (c.compile fields build).2 = .ok tasks) :
    Shape (c.forest fields build) tasks := by
  have hc := c.compiled_of_compile h
  have hvalid : ∀ t ∈ tasks, _ := fun t ht => nameFault?_eq_none_iff.1 (hc.valid t ht)
  refine ⟨hc.names, fun t ht he => ?_, fun t ht ch hch => ⟨?_, ?_⟩, fun t ht => ?_, fun root => ?_,
    c.tasks_compile h, fun t ht s hs => ?_, fun t ht => ?_⟩
  · exact (hvalid t ht).1 (by rw [he]; rfl)
  · exact (hvalid t ht).2.1 ch hch
  · rintro rfl
    exact (hvalid t ht).2.2.1 hch
  · exact (hvalid t ht).2.2.2
  · refine ⟨hc.nodup_taskDir root, fun t ht => ?_⟩
    exact ⟨t.name.toList, (hvalid t ht).1, (hvalid t ht).2.2.1, Cache.toList_taskDir root t.name⟩
  · simpa [Text.isBlankText] using hc.scripts t ht s hs
  · exact Task.streams_growing (hc.submittable.scripts t ht)

/-- A task inside a package, then a package whose task would have the same full name, which is
refused and passed over, and a task with two commands. -/
def Build.clash : Build Unit Unit :=
  .add "a" (.package () fun _ => .add "b.c" (.task (.ok [.shell "echo 1"])) fun r _ => .done r)
    fun _ _ => .add "a.b" (.package () fun _ => .add "c" (.task (.ok [.shell "echo 2"]))
      fun r _ => .done r)
    fun _ _ => .add "d" (.task (.ok [.shell "echo 3", .updatePackages])) fun r _ => .done r

/-- The compiler of packages without fields. -/
def Compiler.plain : Compiler Unit := ⟨fun _ _ => none, .ok, 8⟩

theorem Compiler.shape_clash : ∃ tasks, (plain.compile () fun _ => Build.clash).2 = .ok tasks ∧
    tasks.map Task.name = ["a.b.c", "d"] ∧ Shape (plain.forest () fun _ => Build.clash) tasks := by
  obtain ⟨tasks, h, hnames⟩ : ∃ tasks, (plain.compile () fun _ => Build.clash).2 = .ok tasks ∧
      tasks.map Task.name = ["a.b.c", "d"] := by
    refine ⟨[⟨"a.b.c", [⟨"echo 1", "echo 1"⟩]⟩, ⟨"d", [⟨"echo 3", "echo 3"⟩,
      ⟨"DEBIAN_FRONTEND=noninteractive apt-get update -qq", "update package index"⟩]⟩], ?_, rfl⟩
    decide +kernel
  exact ⟨tasks, h, hnames, plain.shape_of_compile h⟩

end Provisioning

import Provisioning.Proofs.Command.Inputs
import Provisioning.Proofs.Package.Commit
import Provisioning.Recipe

/-!
# What holds of all tasks that are made

However a package is filled, with things that cannot be added and packages in packages: its tasks
have names of their own, the names are valid, and no script is blank (`Compiled`).  So they may be
submitted to a host (`Submittable`).

* `nameFault?_eq_none_iff` : what a valid name is;
* `Package.Sound.commit` : putting in tasks, or refusing them, keeps all that;
* `Build.sound_run` : so does every program that fills a package;
* `Compiler.compiled_of_compile` : so it holds of the tasks of every outermost package;
* `Config.submittable_of_compile` : the tasks of every configuration may be submitted.
-/

namespace Provisioning

/-- What holds of every list of tasks that is submitted to a host. -/
structure Submittable (tasks : List Task) : Prop where
  /-- Tasks have names of their own. -/
  names : (tasks.map Task.name).Nodup
  /-- The names are valid. -/
  valid : ∀ t ∈ tasks, nameFault? t.name = none
  /-- No script is empty. -/
  scripts : ∀ t ∈ tasks, ∀ s ∈ t.scripts, s ≠ ""

/-- What holds of every list of tasks that a program makes. -/
structure Compiled (tasks : List Task) : Prop where
  /-- Tasks have names of their own. -/
  names : (tasks.map Task.name).Nodup
  /-- The names are valid. -/
  valid : ∀ t ∈ tasks, nameFault? t.name = none
  /-- No script is blank. -/
  scripts : ∀ t ∈ tasks, ∀ s ∈ t.scripts, Text.isBlankText s = false

theorem Compiled.submittable {tasks : List Task} (h : Compiled tasks) : Submittable tasks where
  names := h.names
  valid := h.valid
  scripts t ht s hs he := by
    have hblank := h.scripts t ht s hs
    rw [he] at hblank
    exact absurd hblank (by decide)

/-! ### Names -/

/-- A valid name is not empty, has no blanks and no slashes, and no dots at its ends. -/
theorem nameFault?_eq_none_iff {name : String} :
    nameFault? name = none ↔ name.toList ≠ [] ∧ (∀ c ∈ name.toList, Text.isBlank c = false) ∧
      '/' ∉ name.toList ∧ name.toList.head? ≠ some '.' ∧ name.toList.getLast? ≠ some '.' := by
  simp only [nameFault?]
  split
  · simp_all
  · split
    · next h =>
      obtain ⟨c, hc, hb⟩ := List.any_eq_true.1 h
      simp only [reduceCtorEq, ne_eq, false_iff]
      intro hall
      simp [hall.2.1 c hc] at hb
    · split
      · simp_all
      · split
        · next h =>
          simp_all only [Bool.or_eq_true, beq_iff_eq, reduceCtorEq, ne_eq, false_iff, not_and]
          intro _ _ _ hhead hlast
          exact h.elim hhead hlast
        · simp_all

/-- A valid name before a dot and a valid name is a valid name. -/
theorem nameFault?_below {package : String} {t : Task} (hp : nameFault? package = none)
    (ht : nameFault? t.name = none) : nameFault? (t.below package).name = none := by
  rw [nameFault?_eq_none_iff] at hp ht ⊢
  obtain ⟨hne, hblank, hslash, hhead, -⟩ := hp
  obtain ⟨hne', hblank', hslash', -, hlast'⟩ := ht
  have hlist : (t.below package).name.toList = package.toList ++ '.' :: t.name.toList := by
    simp [Task.below]
  rw [hlist]
  refine ⟨by simp, ?_, ?_, ?_, ?_⟩
  · refine List.forall_mem_append.2 ⟨hblank, List.forall_mem_cons.2 ⟨by decide, hblank'⟩⟩
  · simp [hslash, hslash']
  · obtain ⟨c, cs, hcs⟩ := List.exists_cons_of_ne_nil hne
    rw [hcs] at hhead ⊢
    exact hhead
  · rwa [List.getLast?_append, List.getLast?_cons, Option.some_or, ← List.getLast?_cons,
      List.getLast?_cons_of_ne_nil hne']

theorem Task.below_injective (package : String) {t t' : Task}
    (h : (t.below package).name = (t'.below package).name) : t.name = t'.name := by
  simpa [below, String.append_right_inj] using h

namespace Compiled

variable {tasks tasks' : List Task}

theorem nil : Compiled [] := ⟨by simp, by simp, by simp⟩

theorem singleton {t : Task} (hname : nameFault? t.name = none)
    (hs : ∀ s ∈ t.scripts, Text.isBlankText s = false) : Compiled [t] :=
  ⟨by simp, by simpa using hname, by simpa using hs⟩

theorem append (h : Compiled tasks) (h' : Compiled tasks')
    (hnew : ∀ t ∈ tasks', t.name ∉ tasks.map Task.name) : Compiled (tasks ++ tasks') where
  names := by
    rw [List.map_append, List.nodup_append]
    refine ⟨h.names, h'.names, fun n hn m hm he => ?_⟩
    obtain ⟨t, ht, rfl⟩ := List.mem_map.1 hm
    exact hnew t ht (he ▸ hn)
  valid := List.forall_mem_append.2 ⟨h.valid, h'.valid⟩
  scripts := List.forall_mem_append.2 ⟨h.scripts, h'.scripts⟩

theorem below (h : Compiled tasks) {package : String} (hp : nameFault? package = none) :
    Compiled (tasks.map (Task.below package)) where
  names := by
    have hn := h.names
    rw [List.nodup_iff_pairwise_ne, List.pairwise_map] at hn ⊢
    rw [List.pairwise_map]
    exact hn.imp fun hne he => hne (Task.below_injective package he)
  valid t ht := by
    obtain ⟨t, hm, rfl⟩ := List.mem_map.1 ht
    exact nameFault?_below hp (h.valid t hm)
  scripts t ht := by
    obtain ⟨t, hm, rfl⟩ := List.mem_map.1 ht
    exact h.scripts t hm

end Compiled

/-! ### Commands -/

/-- A command that is accepted has a script that is not blank. -/
theorem Command.isBlankText_of_freeze {command : Command} {action : Action}
    (h : command.freeze = .ok action) : Text.isBlankText action.script = false := by
  obtain ⟨-, hscript, rfl⟩ := freeze_eq_ok.1 h
  exact hscript

theorem Action.isBlankText_of_ofCommand {render : String → Except Template.Error String}
    {task : String} {index : Nat} {command : Command} {action : Action}
    (h : Action.ofCommand render task index command = .ok action) :
    Text.isBlankText action.script = false := by
  rw [ofCommand] at h
  split at h
  · simp at h
  · split at h
    · simp at h
    · next hfreeze =>
      obtain rfl := Except.ok.inj h
      exact Command.isBlankText_of_freeze hfreeze

theorem Action.isBlankText_of_ofCommands {render : String → Except Template.Error String}
    {task : String} {index : Nat} {commands : List Command} {actions : List Action}
    (h : Action.ofCommands render task index commands = .ok actions) :
    ∀ a ∈ actions, Text.isBlankText a.script = false := by
  induction commands generalizing index actions with
  | nil =>
    obtain rfl := Except.ok.inj h
    simp
  | cons command commands ih =>
    rw [ofCommands] at h
    obtain ⟨action, hfirst, h⟩ := bind_eq_ok_iff.1 h
    obtain ⟨rest, hrest, h⟩ := bind_eq_ok_iff.1 h
    obtain rfl := Except.ok.inj h
    exact List.forall_mem_cons.2 ⟨isBlankText_of_ofCommand hfirst, ih hrest⟩

theorem Task.compiled_of_ofCommands {render : String → Except Template.Error String}
    {name : String} {commands : List Command} {task : Task} (hname : nameFault? name = none)
    (h : Task.ofCommands render name commands = .ok task) : Compiled [task] := by
  rw [ofCommands] at h
  obtain ⟨actions, hc, h⟩ := bind_eq_ok_iff.1 h
  obtain rfl := Except.ok.inj h
  refine .singleton hname fun s hs => ?_
  obtain ⟨a, ha, rfl⟩ := List.mem_map.1 hs
  exact Action.isBlankText_of_ofCommands hc a ha

/-! ### Packages -/

namespace Package

variable {p p' : Package}

theorem freshName_eq_ok_iff {template name : String} :
    p.freshName template = .ok name ↔
      p.render template = .ok name ∧ nameFault? name = none ∧ name ∉ p.siblings := by
  rw [freshName]
  cases hr : p.render template with
  | error e => simp [bind, Except.bind]
  | ok name' =>
    cases hf : nameFault? name' with
    | some fault =>
      simp only [hf, bind, Except.bind, throw, throwThe, MonadExceptOf.throw, reduceCtorEq,
        Except.ok.injEq, false_iff, not_and]
      rintro rfl hnone
      simp [hf] at hnone
    | none =>
      by_cases hmem : name' ∈ p.siblings
      · simp only [hf, hmem, bind, Except.bind, throw, throwThe, MonadExceptOf.throw,
          List.contains_eq_mem, decide_true, if_true, reduceCtorEq, Except.ok.injEq, false_iff,
          not_and]
        rintro rfl _ hnew
        exact hnew hmem
      · simp only [hf, hmem, bind, Except.bind, pure, Except.pure, List.contains_eq_mem,
          decide_false, Bool.false_eq_true, if_false, Except.ok.injEq]
        constructor
        · rintro rfl
          exact ⟨rfl, hf, hmem⟩
        · exact And.left

/-- A name that is new in a package is valid. -/
theorem nameFault?_of_freshName {template name : String} (h : p.freshName template = .ok name) :
    nameFault? name = none :=
  (freshName_eq_ok_iff.1 h).2.1

/-- The full names that are taken in a package are those of its tasks, and the tasks may be
submitted. -/
structure Sound (p : Package) : Prop where
  /-- The names that are taken are those of the tasks. -/
  fullNames : p.fullNames = p.tasks.map Task.name
  /-- They are names of their own, and valid. -/
  compiled : Compiled p.tasks

theorem sound_empty (reference : Template.Reference) (rounds : Nat) :
    (empty reference rounds).Sound := ⟨rfl, .nil⟩

/-- That is so also after tasks were put in, or were refused. -/
theorem Sound.commit {name : String} {made : Except CompileError (List Task)} (h : p.Sound)
    (hmade : ∀ tasks, made = .ok tasks → Compiled tasks) :
    (p.undergo (commit name made)).1.Sound := by
  rcases hp : p.undergo (Package.commit name made) with ⟨p', e | u⟩
  · have hsame := undergo_commit_of_error (congrArg Prod.snd hp)
    rw [hp] at hsame
    exact hsame ▸ h
  · obtain ⟨tasks, htasks, hnew, rfl⟩ := undergo_commit_eq_ok_iff.1 hp
    rw [h.fullNames] at hnew
    refine ⟨?_, h.compiled.append (hmade tasks htasks) hnew⟩
    rw [extend, h.fullNames, List.map_append]

end Package

/-! ### Programs -/

section

variable {σ ν : Type} (c : Compiler σ)

/-- An outermost package has tasks if its fields are valid and the program that fills it ends
well. -/
theorem Compiler.compile_eq_ok_iff {fields : σ} {build : σ → Build σ ν} {tasks : List Task} :
    (c.compile fields build).2 = .ok tasks ↔ ∃ fields' p, c.validate fields = .ok fields' ∧
      ((build fields').run c (.empty (c.reference fields') c.rounds)).2 = (p, .ok ()) ∧
        tasks = p.tasks := by
  cases hfields : c.validate fields with
  | error e => simp [compile, hfields]
  | ok fields' =>
    simp only [compile, hfields]
    generalize hran : (build fields').run c (.empty (c.reference fields') c.rounds) = ran
    obtain ⟨notes, p, result⟩ := ran
    cases result with
    | error e => simp [Except.map, hran]
    | ok u => simp [Except.map, hran, eq_comm]

/-- So has a package inside another one; its name stands before those of the tasks. -/
theorem Build.Entry.tasks_package_eq_ok_iff {fields : σ} {build : σ → Build σ ν} {p : Package}
    {name : String} {tasks : List Task} :
    ((Build.Entry.package fields build).tasks c p name).2 = .ok tasks ↔
      ∃ made, (c.compile fields build).2 = .ok made ∧ tasks = made.map (Task.below name) := by
  cases hfields : c.validate fields with
  | error e => simp [Build.Entry.tasks, Compiler.compile, hfields]
  | ok fields' =>
    simp only [Build.Entry.tasks, Compiler.compile, hfields]
    generalize (build fields').run c (.empty (c.reference fields') c.rounds) = ran
    obtain ⟨notes, q, result⟩ := ran
    cases result with
    | error e => simp [Except.map]
    | ok u => simp [Except.map, eq_comm]

mutual

/-- Every program keeps a package sound. -/
theorem Build.sound_run : (build : Build σ ν) → (p : Package) → p.Sound →
    (build.run c p).2.1.Sound
  | .done _, _, h => h
  | .note _ next, p, h => next.sound_run p h
  | .add template entry next, p, h => by
    rw [run]
    split
    · exact (next _ _).sound_run p h
    · next name hname =>
      refine (next _ _).sound_run _ (h.commit fun tasks hmade => ?_)
      exact entry.compiled_tasks p (Package.nameFault?_of_freshName hname) hmade

theorem Build.Entry.compiled_tasks : (entry : Build.Entry σ ν) → (p : Package) →
    {name : String} → nameFault? name = none → {made : List Task} →
    (entry.tasks c p name).2 = .ok made → Compiled made
  | .task commands, p, name, hname, made, h => by
    rw [Build.Entry.tasks] at h
    obtain ⟨commands, -, h⟩ := bind_eq_ok_iff.1 h
    obtain ⟨task, ht, h⟩ := bind_eq_ok_iff.1 h
    obtain rfl := Except.ok.inj h
    exact Task.compiled_of_ofCommands hname ht
  | .package fields build, p, name, hname, made, h => by
    obtain ⟨made, hmade, rfl⟩ := (Build.Entry.tasks_package_eq_ok_iff c).1 h
    obtain ⟨fields', q, -, hran, rfl⟩ := c.compile_eq_ok_iff.1 hmade
    have hrun := (build fields').sound_run _ (Package.sound_empty (c.reference fields') c.rounds)
    rw [hran] at hrun
    exact hrun.compiled.below hname

end

/-- However it is filled, an outermost package has tasks under names of their own. -/
theorem Compiler.compiled_of_compile {fields : σ} {build : σ → Build σ ν} {tasks : List Task}
    (h : (c.compile fields build).2 = .ok tasks) : Compiled tasks := by
  obtain ⟨fields', p, -, hran, rfl⟩ := c.compile_eq_ok_iff.1 h
  have hrun := (build fields').sound_run c _ (Package.sound_empty (c.reference fields') c.rounds)
  rw [hran] at hrun
  exact hrun.compiled

end

/-- The tasks of a configuration may be submitted. -/
theorem Config.submittable_of_compile {config : Config} {rounds : Nat} {tasks : List Task}
    (h : config.compileWith rounds = .ok tasks) : Submittable tasks := by
  rw [compileWith] at h
  obtain ⟨params, -, h⟩ := bind_eq_ok_iff.1 h
  exact (Compiler.compiled_of_compile _ h).submittable

end Provisioning

import Provisioning.Proofs.Config.Binding
import Provisioning.Proofs.Config.Independence

/-!
# Instances of one recipe

The steps of a recipe may be expanded in many places, inside other recipes and packages, of
configurations that have nothing else in common.  What is around an instance decides under which
names its tasks stand, and whether it can be expanded at all; it has no part in the tasks.

* `Config.HasSite` : the places where steps of a configuration are expanded;
* `Package.Filled.eq_of_agree` : two libraries that agree on the recipes that steps use fill a
  package in the same way, if both fill it;
* `Config.HasSite.tasks` : the tasks of each place are those of the configuration at that place;
* `Config.instance_determined` : instances of a recipe with the same fields come to the same tasks.
-/

namespace Provisioning

/-! ### Names of packages -/

/-- Puts names of packages, from the outermost on, before the name of a task. -/
def Task.under (packages : List String) (t : Task) : Task :=
  { t with name := Text.join "." (packages ++ [t.name]) }

@[simp] theorem Task.under_nil (t : Task) : t.under [] = t := by
  simp [under, Text.join]

/-- One more package inside the others. -/
theorem Task.under_below (packages : List String) (package : String) (t : Task) :
    (t.below package).under packages = t.under (packages ++ [package]) := by
  have hjoin : Text.join "." (packages ++ [package ++ "." ++ t.name]) =
      Text.join "." (packages ++ [package] ++ [t.name]) := by
    simp only [Text.join]
    induction packages with
    | nil => simp [String.append_assoc]
    | cons p packages ih =>
      rw [List.cons_append, List.cons_append, List.cons_append,
        String.intercalate_cons_of_ne_nil (by simp), String.intercalate_cons_of_ne_nil (by simp),
        ih]
  rw [under, under, below, hjoin]

/-! ### Recipes that are used -/

/-- The recipes that steps use: those that they name, and those that the steps of these use. -/
inductive Uses (recipes : Named Recipe) : List Step → String → Prop
  /-- A step names the recipe. -/
  | step {steps : List Step} {s : Step} {recipe : String} : s ∈ steps →
      s.recipe? = some recipe → Uses recipes steps recipe
  /-- The steps of a recipe that a step names use it. -/
  | inside {steps : List Step} {s : Step} {recipe other : String} {r : Recipe} : s ∈ steps →
      s.recipe? = some recipe → recipes.get? recipe = some r → Uses recipes r.steps other →
      Uses recipes steps other

/-- Two sets of recipes agree on all recipes that steps use. -/
def Named.AgreeOn (recipes recipes' : Named Recipe) (steps : List Step) : Prop :=
  ∀ other, Uses recipes steps other → recipes.get? other = recipes'.get? other

section

variable {recipes recipes' : Named Recipe} {steps : List Step} {s : Step} {recipe : String}
  {r : Recipe}

/-- Also on those that all steps but the first use. -/
theorem Named.AgreeOn.tail (h : recipes.AgreeOn recipes' (s :: steps)) :
    recipes.AgreeOn recipes' steps := by
  intro other hother
  refine h other ?_
  cases hother with
  | step hs hrecipe => exact .step (List.mem_cons_of_mem _ hs) hrecipe
  | inside hs hrecipe hr hother => exact .inside (List.mem_cons_of_mem _ hs) hrecipe hr hother

theorem Named.AgreeOn.get? (h : recipes.AgreeOn recipes' steps) (hs : s ∈ steps)
    (hrecipe : s.recipe? = some recipe) : recipes.get? recipe = recipes'.get? recipe :=
  h recipe (.step hs hrecipe)

/-- They also agree on those that the steps of such a recipe use. -/
theorem Named.AgreeOn.inside (h : recipes.AgreeOn recipes' steps) (hs : s ∈ steps)
    (hrecipe : s.recipe? = some recipe) (hr : recipes.get? recipe = some r) :
    recipes.AgreeOn recipes' r.steps :=
  fun other hother => h other (.inside hs hrecipe hr hother)

end

/-! ### Two libraries -/

/-- An instance has the same fields wherever it can be expanded. -/
theorem instanceFields_unique {lib lib' : Library} {reference : Template.Reference}
    {above above' : List String} {package recipe : String} {bindings : List (String × Yaml.Value)}
    {fields fields' : Field.Params} {r r' : Recipe} (hrounds : lib.rounds = lib'.rounds)
    (hrecipe : lib.recipes.get? recipe = lib'.recipes.get? recipe)
    (h : instanceFields lib reference above package recipe bindings = .ok (fields, r))
    (h' : instanceFields lib' reference above' package recipe bindings = .ok (fields', r')) :
    fields = fields' ∧ r = r' := by
  obtain ⟨hr, -, schema, hschema, hbind⟩ := instanceFields_inv h
  obtain ⟨hr', -, schema', hschema', hbind'⟩ := instanceFields_inv h'
  obtain rfl := Option.some.inj (hr.symm.trans (hrecipe.trans hr'))
  obtain rfl := Except.ok.inj (hschema.symm.trans hschema')
  rw [← hrounds] at hbind'
  exact ⟨Except.ok.inj (hbind.symm.trans hbind'), rfl⟩

/-- The things that a step adds in two places are the same commands, or packages with the same
fields for the same recipe. -/
theorem Step.entries_cases {lib lib' : Library} {above above' : List String}
    {params params' : Field.Params} {s : Step} {template template' : String}
    {entry entry' : Build.Entry Field.Params Empty} (hrounds : lib.rounds = lib'.rounds)
    (hparams : params.get? = params'.get?)
    (hrecipe : ∀ recipe, s.recipe? = some recipe →
      lib.recipes.get? recipe = lib'.recipes.get? recipe)
    (h : s.entry lib lib.expand above params = .inl (template, entry))
    (h' : s.entry lib' lib'.expand above' params' = .inl (template', entry')) :
    (∃ commands, entry = .task commands ∧ entry' = .task commands) ∨
    ∃ recipe r fields, s.recipe? = some recipe ∧ lib.recipes.get? recipe = some r ∧
      recipe ∈ lib.unused above ∧ entry = .package fields (lib.expand (above ++ [recipe]) r.steps) ∧
      entry' = .package fields (lib'.expand (above' ++ [recipe]) r.steps) := by
  rw [Step.entry] at h h'
  cases hshape : s.shape with
  | malformed => simp [hshape] at h
  | task name commands =>
    simp only [hshape, Sum.inl.injEq, Prod.mk.injEq] at h h'
    exact .inl ⟨.ok commands, h.2.symm, h'.2.symm⟩
  | package name recipe bindings =>
    have hs := Step.recipe_of_shape hshape
    simp only [hshape] at h h'
    cases hfields : instanceFields lib params.get? above name recipe bindings with
    | error e => simp [hfields] at h
    | ok made =>
      cases hfields' : instanceFields lib' params'.get? above' name recipe bindings with
      | error e => simp [hfields'] at h'
      | ok made' =>
        obtain ⟨fields, r⟩ := made
        obtain ⟨fields', r'⟩ := made'
        rw [hfields] at h
        rw [hfields'] at h'
        rw [← hparams] at hfields'
        obtain ⟨rfl, rfl⟩ := instanceFields_unique hrounds (hrecipe recipe hs) hfields hfields'
        obtain ⟨hr, habove⟩ := instanceFields_eq_ok hfields
        have hunused := Library.mem_unused.2 ⟨Named.mem_names_of_get? hr, habove⟩
        exact .inr ⟨recipe, r, fields, hs, hr, hunused, (Prod.mk.inj (Sum.inl.inj h)).2.symm,
          (Prod.mk.inj (Sum.inl.inj h')).2.symm⟩

/-- Two libraries that agree on the recipes that steps use fill a package in the same way, if both
fill it, whatever recipes are expanded around the steps. -/
theorem Package.Filled.eq_of_agree {lib lib' : Library} {k : Compiler Field.Params}
    (hrounds : lib.rounds = lib'.rounds) {above : List String} :
    ∀ {above' : List String} {steps : List Step} {params params' : Field.Params}
      {p q q' : Package}, lib.recipes.AgreeOn lib'.recipes steps → params.get? = params'.get? →
      p.Filled k (steps.map (Step.entry lib lib.expand above params)) q →
      p.Filled k (steps.map (Step.entry lib' lib'.expand above' params')) q' → q = q' := by
  -- The recipes left to be expanded in the first library get fewer on the way in.  The second one
  -- expands the same recipes, so nothing need be counted there.
  induction above using lib.induction_above with
  | h above ih =>
    intro above' steps params params' p q q' hagree hparams h h'
    induction steps generalizing p with
    | nil => exact (filled_nil.1 h).trans (filled_nil.1 h').symm
    | cons s steps ihsteps =>
      rw [List.map_cons] at h h'
      obtain ⟨entry, p₁, hs, hp₁, hrest⟩ := filled_step h
      obtain ⟨entry', p₂, hs', hp₂, hrest'⟩ := filled_step h'
      obtain ⟨name, made, hname, -, hmade, -, rfl⟩ := attempt_eq_ok_iff.1 hp₁
      obtain ⟨name', made', hname', -, hmade', -, rfl⟩ := attempt_eq_ok_iff.1 hp₂
      obtain rfl := Except.ok.inj (hname.symm.trans hname')
      have hsame : made = made' := by
        rcases Step.entries_cases hrounds hparams (fun _ => hagree.get? List.mem_cons_self) hs hs'
          with ⟨commands, rfl, rfl⟩ | ⟨recipe, r, fields, hrecipe, hr, hunused, rfl, rfl⟩
        · exact Except.ok.inj (hmade.symm.trans hmade')
        · obtain ⟨tasks, htasks, rfl⟩ := (Build.Entry.tasks_package_eq_ok_iff k).1 hmade
          obtain ⟨tasks', htasks', rfl⟩ := (Build.Entry.tasks_package_eq_ok_iff k).1 hmade'
          obtain ⟨child, q, hchild, hq, rfl⟩ := Library.compile_expand_eq_ok_iff.1 htasks
          obtain ⟨child', q', hchild', hq', rfl⟩ := Library.compile_expand_eq_ok_iff.1 htasks'
          obtain rfl := Except.ok.inj (hchild.symm.trans hchild')
          rw [ih recipe hunused (hagree.inside List.mem_cons_self hrecipe hr) rfl hq hq']
      subst hsame
      exact ihsteps hagree.tail hrest hrest'

/-- Fields that are alike make steps of two such libraries come to the same tasks, if they come to
any in both. -/
theorem Library.tasks_eq_of_agree (lib lib' : Library) {rounds : Nat} {above above' : List String}
    {steps : List Step} {fields fields' : Field.Params} {tasks tasks' : List Task}
    (hrounds : lib.rounds = lib'.rounds) (hagree : lib.recipes.AgreeOn lib'.recipes steps)
    (hfields : fields.Alike fields')
    (h : ((Compiler.forParams rounds).compile fields (lib.expand above steps)).2 = .ok tasks)
    (h' : ((Compiler.forParams rounds).compile fields' (lib'.expand above' steps)).2 =
      .ok tasks') : tasks = tasks' := by
  obtain ⟨child, p, hchild, hp, rfl⟩ := compile_expand_eq_ok_iff.1 h
  obtain ⟨child', p', hchild', hp', rfl⟩ := compile_expand_eq_ok_iff.1 h'
  have hget : child.get? = child'.get? := by
    rw [← Compiler.forParams_validate hchild, ← Compiler.forParams_validate hchild']
    exact funext hfields.validate.1.get?
  have hreference : (Compiler.forParams rounds).reference child =
    (Compiler.forParams rounds).reference child' := hget
  rw [← hreference] at hp'
  rw [hp.eq_of_agree hrounds hagree hget hp']

/-! ### Places in a configuration -/

/-- A place where steps are expanded. -/
structure Site where
  /-- The recipes expanded around it, outermost first. -/
  above : List String
  /-- The names of the packages around it, outermost first. -/
  packages : List String
  /-- The fields of the package, validated. -/
  fields : Field.Params
  /-- The steps. -/
  steps : List Step

/-- A step at a place instantiates a recipe, under a name and with fields. -/
def Site.Instantiates (lib : Library) (site : Site) (name recipe : String) (fields : Field.Params)
    (r : Recipe) : Prop :=
  ∃ s ∈ site.steps, ∃ template bindings, s.shape = .package template recipe bindings ∧
    (Package.empty site.fields.get? lib.rounds).render template = .ok name ∧
    instanceFields lib site.fields.get? site.above template recipe bindings = .ok (fields, r)

/-- The places where steps of a configuration are expanded. -/
inductive Config.HasSite (c : Config) (rounds : Nat) : Site → Prop
  /-- The outermost package. -/
  | root {params fields : Field.Params} : c.rootParams = .ok params →
      (Compiler.forParams rounds).validate params = .ok fields →
      HasSite c rounds ⟨[], [], fields, c.provision⟩
  /-- The package of an instance of a recipe. -/
  | inside {site : Site} {name recipe : String} {fields child : Field.Params} {r : Recipe} :
      HasSite c rounds site →
      site.Instantiates ⟨c.recipes, rounds⟩ name recipe fields r →
      (Compiler.forParams rounds).validate fields = .ok child →
      HasSite c rounds ⟨site.above ++ [recipe], site.packages ++ [name], child, r.steps⟩

/-- The tasks of an instance stand among those of the package at its place, under its name. -/
theorem Site.Instantiates.exists_tasks {lib : Library} {k : Compiler Field.Params} {site : Site}
    {name recipe : String} {fields : Field.Params} {r : Recipe} {p : Package}
    (h : site.Instantiates lib name recipe fields r)
    (hp : (Package.empty site.fields.get? lib.rounds).Filled k
      (site.steps.map (Step.entry lib lib.expand site.above site.fields)) p) :
    ∃ made before after,
      (k.compile fields (lib.expand (site.above ++ [recipe]) r.steps)).2 = .ok made ∧
      p.tasks = before ++ made.map (Task.below name) ++ after := by
  obtain ⟨s, hs, template, bindings, hshape, hname, hfields⟩ := h
  have hentry : s.entry lib lib.expand site.above site.fields =
      .inl (template, .package fields (lib.expand (site.above ++ [recipe]) r.steps)) := by
    rw [Step.entry, hshape]
    simp only [hfields]
  obtain ⟨front, back, hsteps⟩ := List.append_of_mem hs
  rw [hsteps, List.map_append, List.map_cons, hentry] at hp
  -- What stands before the step and what stands after it fill packages of their own.
  obtain ⟨q, q', hq, hq', -, rfl⟩ := Package.filled_append_iff
    (p := Package.empty site.fields.get? lib.rounds) |>.1 hp
  obtain ⟨p₁, hp₁, hrest⟩ := Package.filled_cons.1 hq'
  obtain ⟨name', made, hname', -, hmade, -, rfl⟩ := Package.attempt_eq_ok_iff.1 hp₁
  obtain rfl : name = name' := Except.ok.inj (hname.symm.trans hname')
  obtain ⟨q₂, -, -, rfl⟩ := Package.filled_iff.1 hrest
  obtain ⟨tasks, htasks, rfl⟩ := (Build.Entry.tasks_package_eq_ok_iff k).1 hmade
  refine ⟨tasks, q.tasks, q₂.tasks, htasks, ?_⟩
  simp

/-- The tasks of the package at a place are those of the configuration at that place, under the
names of the packages around. -/
theorem Config.HasSite.exists_tasks {c : Config} {rounds : Nat} {site : Site} {tasks : List Task}
    (h : c.HasSite rounds site) (hc : c.compileWith rounds = .ok tasks) :
    ∃ p before after,
      (Package.empty site.fields.get? rounds).Filled (.forParams rounds)
        (site.steps.map (Step.entry ⟨c.recipes, rounds⟩ (Library.expand ⟨c.recipes, rounds⟩)
          site.above site.fields)) p ∧
      tasks = before ++ p.tasks.map (Task.under site.packages) ++ after := by
  induction h with
  | @root params fields hparams hfields =>
    rw [compileWith_eq, compileBy, hparams] at hc
    have hbuild : ((Compiler.forParams rounds).compile params
        (Library.expand ⟨c.recipes, rounds⟩ [] c.provision)).2 = .ok tasks := by
      rw [← build_eq]
      exact hc
    obtain ⟨fields', p, hfields', hp, rfl⟩ := Library.compile_expand_eq_ok_iff.1 hbuild
    obtain rfl := Except.ok.inj (hfields.symm.trans hfields')
    have hunder : Task.under [] = id := funext Task.under_nil
    exact ⟨p, [], [], hp, by simp [hunder]⟩
  | @inside site name recipe fields child r hsite hinst hchild ih =>
    obtain ⟨p, before, after, hp, rfl⟩ := ih
    obtain ⟨made, before', after', hmade, htasks⟩ := hinst.exists_tasks hp
    obtain ⟨child', q, hchild', hq, rfl⟩ := Library.compile_expand_eq_ok_iff.1 hmade
    obtain rfl := Except.ok.inj (hchild.symm.trans hchild')
    refine ⟨q, before ++ before'.map (Task.under site.packages),
      after'.map (Task.under site.packages) ++ after, hq, ?_⟩
    simp [htasks, Function.comp_def, Task.under_below]

/-- Where a recipe is instantiated, at whatever place of a configuration that compiles, its steps
come to tasks, and these stand among the tasks of the configuration. -/
theorem Config.HasSite.instance_tasks {c : Config} {rounds : Nat} {site : Site}
    {tasks : List Task} {name recipe : String} {fields : Field.Params} {r : Recipe}
    (h : c.HasSite rounds site) (hc : c.compileWith rounds = .ok tasks)
    (hinst : site.Instantiates ⟨c.recipes, rounds⟩ name recipe fields r) :
    ∃ made before after,
      ((Compiler.forParams rounds).compile fields
        (Library.expand ⟨c.recipes, rounds⟩ (site.above ++ [recipe]) r.steps)).2 = .ok made ∧
      tasks = before ++ made.map (Task.under (site.packages ++ [name])) ++ after := by
  obtain ⟨p, before, after, hp, rfl⟩ := h.exists_tasks hc
  obtain ⟨made, before', after', hmade, htasks⟩ := hinst.exists_tasks hp
  refine ⟨made, before ++ before'.map (Task.under site.packages),
    after'.map (Task.under site.packages) ++ after, hmade, ?_⟩
  simp [htasks, Function.comp_def, Task.under_below]

/-- A recipe is instantiated at two places, of one configuration or of two, at any depth, under any
names and beside any other steps.  Its fields have the same values at both, and its declaration and
those of all recipes that its steps use are the same in both configurations.  If these compile, with
the same number of rounds, then the steps of the recipe come to the same tasks at both places, with
the same actions and so the same checksums, and these stand in one piece among the tasks of either
configuration, under the names of the packages around. -/
theorem Config.instance_determined {c c' : Config} {rounds : Nat} {tasks tasks' : List Task}
    {site site' : Site} {name name' recipe : String} {fields fields' : Field.Params} {r : Recipe}
    (hc : c.compileWith rounds = .ok tasks) (hc' : c'.compileWith rounds = .ok tasks')
    (hsite : c.HasSite rounds site) (hsite' : c'.HasSite rounds site')
    (hinst : site.Instantiates ⟨c.recipes, rounds⟩ name recipe fields r)
    (hinst' : site'.Instantiates ⟨c'.recipes, rounds⟩ name' recipe fields' r)
    (hvalues : ∀ field, fields.get? field = fields'.get? field)
    (hagree : c.recipes.AgreeOn c'.recipes r.steps) :
    ∃ made before after before' after',
      ((Compiler.forParams rounds).compile fields
        (Library.expand ⟨c.recipes, rounds⟩ (site.above ++ [recipe]) r.steps)).2 = .ok made ∧
      ((Compiler.forParams rounds).compile fields'
        (Library.expand ⟨c'.recipes, rounds⟩ (site'.above ++ [recipe]) r.steps)).2 = .ok made ∧
      tasks = before ++ made.map (Task.under (site.packages ++ [name])) ++ after ∧
      tasks' = before' ++ made.map (Task.under (site'.packages ++ [name'])) ++ after' := by
  obtain ⟨made, before, after, hmade, rfl⟩ := hsite.instance_tasks hc hinst
  obtain ⟨made', before', after', hmade', rfl⟩ := hsite'.instance_tasks hc' hinst'
  have halike : fields.Alike fields' := by
    obtain ⟨_, _, _, _, _, _, hfields⟩ := hinst
    obtain ⟨_, _, _, _, _, _, hfields'⟩ := hinst'
    obtain ⟨-, -, schema, hschema, hbind⟩ := instanceFields_inv hfields
    obtain ⟨-, -, schema', hschema', hbind'⟩ := instanceFields_inv hfields'
    obtain rfl := Except.ok.inj (hschema.symm.trans hschema')
    exact ⟨(bindFields_schema hbind).trans (bindFields_schema hbind').symm, hvalues⟩
  obtain rfl := Library.tasks_eq_of_agree ⟨c.recipes, rounds⟩ ⟨c'.recipes, rounds⟩ rfl hagree halike
    hmade hmade'
  exact ⟨made, before, after, before', after', hmade, hmade', rfl, rfl⟩

/-- A recipe that says a text. -/
def Recipe.say : Recipe where
  fields := .ofList [("text", { kind := .string })]
  steps := [{
    task? := some "hello"
    commands? := some [.shell "echo \x7b\x7b .text \x7d\x7d"] }]

/-- A configuration that says a text with a parameter in it. -/
def Config.outright : Config where
  version := "1.0"
  name := "outright"
  params := .ofList [("who", .string "world")]
  recipes := .ofList [("say", .say)]
  provision := [{
    package? := some "p"
    recipe? := some "say"
    bindings := .ofList [("text", .string "\x7b\x7b .who \x7d\x7d!")] }]

/-- A configuration that says the text inside of another recipe. -/
def Config.relayed : Config where
  version := "1.0"
  name := "relayed"
  recipes := .ofList [
    ("host", { steps := [{
      package? := some "q"
      recipe? := some "say"
      bindings := .ofList [("text", .string "world!")] }] }),
    ("say", .say)]
  provision := [{ package? := some "o", recipe? := some "host" }]

theorem eq_ok_of_toOption {ε α : Type} {x : Except ε α} {a : α} (h : x.toOption = some a) :
    x = .ok a := by
  cases x with
  | error e => simp [Except.toOption] at h
  | ok b => rw [Option.some.inj h]

theorem Config.instance_determined_say :
    ∃ made before after before' after' : List Task,
      outright.compileWith 8 = .ok (before ++ made.map (Task.under ["p"]) ++ after) ∧
      relayed.compileWith 8 = .ok (before' ++ made.map (Task.under ["o", "q"]) ++ after') := by
  have hvalues : (do
      let params ← outright.rootParams.toOption
      let root ← ((Compiler.forParams 8).validate params).toOption
      let (fields, _) ← (instanceFields ⟨outright.recipes, 8⟩ root.get? [] "p" "say"
        (Named.ofList [("text", .string "\x7b\x7b .who \x7d\x7d!")]).entries).toOption
      return fields.values.entries) = some [("text", Field.Value.string "world!")] := by
    decide +kernel
  have hvalues' : (do
      let params ← relayed.rootParams.toOption
      let root ← ((Compiler.forParams 8).validate params).toOption
      let (host, _) ← (instanceFields ⟨relayed.recipes, 8⟩ root.get? [] "o" "host" []).toOption
      let child ← ((Compiler.forParams 8).validate host).toOption
      let (fields, _) ← (instanceFields ⟨relayed.recipes, 8⟩ child.get? ["host"] "q" "say"
        (Named.ofList [("text", .string "world!")]).entries).toOption
      return fields.values.entries) = some [("text", Field.Value.string "world!")] := by
    decide +kernel
  simp only [Option.bind_eq_bind, Option.bind_eq_some_iff, Option.pure_def,
    Option.some.injEq] at hvalues hvalues'
  obtain ⟨params, hparams, root, hroot, ⟨fields, r⟩, hfields, hentries⟩ := hvalues
  obtain ⟨params', hparams', root', hroot', ⟨host, rhost⟩, hhost, child, hchild, ⟨fields', r'⟩,
    hfields', hentries'⟩ := hvalues'
  have hfields := eq_ok_of_toOption hfields
  have hhost := eq_ok_of_toOption hhost
  have hfields' := eq_ok_of_toOption hfields'
  -- The recipes are those that were declared.
  have hr : outright.recipes.get? "say" = some r := (instanceFields_eq_ok hfields).1
  have hr' : relayed.recipes.get? "say" = some r' := (instanceFields_eq_ok hfields').1
  have hrhost : relayed.recipes.get? "host" = some rhost := (instanceFields_eq_ok hhost).1
  obtain rfl : Recipe.say = r := Option.some.inj hr
  obtain rfl : Recipe.say = r' := Option.some.inj hr'
  obtain rfl := Option.some.inj hrhost
  have hname : ∀ (reference : Template.Reference) (name : String),
      Template.isPending name.toList = false →
        (Package.empty reference 8).render name = .ok name := by
    intro reference name hpending
    rw [Package.render, Package.expand, Template.render_of_not_pending hpending]
    rfl
  have hsite : outright.HasSite 8 _ :=
    .root (eq_ok_of_toOption hparams) (eq_ok_of_toOption hroot)
  have hsite' : relayed.HasSite 8 _ :=
    .inside (.root (eq_ok_of_toOption hparams') (eq_ok_of_toOption hroot'))
      ⟨_, List.mem_singleton_self _, "o", [], rfl, hname _ _ (by decide +kernel), hhost⟩
      (eq_ok_of_toOption hchild)
  have hagree : outright.recipes.AgreeOn relayed.recipes Recipe.say.steps := by
    intro other hother
    cases hother with
    | step hs hrecipe =>
      obtain rfl := List.mem_singleton.1 hs
      cases hrecipe
    | inside hs hrecipe =>
      obtain rfl := List.mem_singleton.1 hs
      cases hrecipe
  have halike : ∀ field, fields.get? field = fields'.get? field := by
    obtain ⟨-, -, schema, hschema, hbind⟩ := instanceFields_inv hfields
    obtain ⟨-, -, schema', hschema', hbind'⟩ := instanceFields_inv hfields'
    obtain rfl := Except.ok.inj (hschema.symm.trans hschema')
    have hsame : fields.values.entries = fields'.values.entries := hentries.trans hentries'.symm
    intro field
    simp only [Field.Params.get?, bindFields_schema hbind, bindFields_schema hbind', Named.get?,
      hsame]
  obtain ⟨tasks, hc⟩ : ∃ tasks, outright.compileWith 8 = .ok tasks :=
    ⟨[⟨"p.hello", [⟨"echo world!", "echo world!"⟩]⟩], by decide +kernel⟩
  obtain ⟨tasks', hc'⟩ : ∃ tasks, relayed.compileWith 8 = .ok tasks :=
    ⟨[⟨"o.q.hello", [⟨"echo world!", "echo world!"⟩]⟩], by decide +kernel⟩
  obtain ⟨made, before, after, before', after', -, -, rfl, rfl⟩ :=
    instance_determined hc hc' hsite hsite'
      ⟨_, List.mem_singleton_self _, "p", _, rfl, hname _ _ (by decide +kernel), hfields⟩
      ⟨_, List.mem_singleton_self _, "q", _, rfl, hname _ _ (by decide +kernel), hfields'⟩
      halike hagree
  exact ⟨made, before, after, before', after', hc, hc'⟩

end Provisioning

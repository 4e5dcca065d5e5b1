import Provisioning.Proofs.Command.Inputs
import Provisioning.Proofs.Config.Binding
import Provisioning.Proofs.Config.Independence
import Provisioning.Proofs.Template.Reading

/-!
# Parameters that a step does not read

The parameters of a configuration reach a step only through the texts of the step, and a recipe
only through the texts that a step passes down to it.  So a parameter that no text of a step reads
has no part in the tasks that come of the step, however deep its recipes go.

* `Step.entry_congr`, `Step.tasks_congr` : parameters that agree on all texts of a step give the
  same thing to be added, and the same tasks of it;
* `Config.rootParams_get?` : each parameter has the value that stands under its name;
* `Config.unread_param_inert` : a parameter may be replaced without touching the tasks of steps
  that do not read it.
-/

namespace Provisioning

/-! ### The texts of a step -/

/-- The texts among the values that a step gives. -/
def boundTexts (bindings : List (String × Yaml.Value)) : List String :=
  bindings.filterMap fun
    | (_, .string text) => some text
    | _ => none

/-- The texts of a step that are expanded: its name, and the inputs of its commands or the texts
that it passes down. -/
def Step.texts (s : Step) : List String :=
  s.name :: match s.shape with
    | .task _ commands => commands.flatMap Command.inputs
    | .package _ _ bindings => boundTexts bindings
    | .malformed _ => []

/-- Whether a text of a step depends on a field. -/
def Step.Reads (reference : Template.Reference) (s : Step) (field : String) : Prop :=
  ∃ text ∈ s.texts, Template.Reads reference text.toList field

section

variable {render render' : String → Except Template.Error String}

theorem Action.ofCommands_congr {commands : List Command}
    (h : ∀ input ∈ commands.flatMap Command.inputs, render input = render' input) (task : String)
    (index : Nat) :
    Action.ofCommands render task index commands =
      Action.ofCommands render' task index commands := by
  induction commands generalizing index with
  | nil => rfl
  | cons command commands ih =>
    rw [List.flatMap_cons] at h
    obtain ⟨hcommand, hcommands⟩ := List.forall_mem_append.1 h
    rw [ofCommands, ofCommands, ofCommand, ofCommand, Command.render_congr hcommand, ih hcommands]

end

theorem bindFields_congr {render render' : String → Except CompileError String}
    {bindings : List (String × Yaml.Value)}
    (h : ∀ text ∈ boundTexts bindings, render text = render' text) (package : String)
    (params : Field.Params) :
    bindFields render package params bindings = bindFields render' package params bindings := by
  induction bindings generalizing params with
  | nil => rfl
  | cons binding bindings ih =>
    obtain ⟨field, v⟩ := binding
    have hvalue : renderValue render v = renderValue render' v := by
      cases v with
      | string text => rw [renderValue, renderValue, h text (by simp [boundTexts])]
      | _ => rfl
    have hrest : ∀ text ∈ boundTexts bindings, render text = render' text := by
      intro text htext
      refine h text ?_
      rw [boundTexts, List.filterMap_cons]
      split
      · exact htext
      · exact List.mem_cons_of_mem _ htext
    simp only [bindFields, hvalue, ih hrest]

/-! ### What a step adds -/

section

variable {lib : Library} {params params' : Field.Params} {s : Step}

theorem Package.render_congr {reference reference' : Template.Reference} {rounds : Nat}
    {text : String}
    (h : Template.render reference rounds text = Template.render reference' rounds text) :
    (Package.empty reference rounds).render text = (Package.empty reference' rounds).render text :=
  congrArg (Except.mapError (CompileError.render text)) h

/-- Parameters that agree on all texts of a step give the same thing to be added. -/
theorem Step.entry_congr
    (h : ∀ text ∈ s.texts, Template.render params.get? lib.rounds text =
      Template.render params'.get? lib.rounds text)
    (expand : List String → List Step → Field.Params → RecipeBuild) (above : List String) :
    s.entry lib expand above params = s.entry lib expand above params' := by
  rw [texts] at h
  rw [entry, entry]
  cases hshape : s.shape with
  | malformed name => rfl
  | task name commands => rfl
  | package name recipe bindings =>
    simp only [hshape] at h
    have hfields : instanceFields lib params.get? above name recipe bindings =
        instanceFields lib params'.get? above name recipe bindings := by
      rw [instanceFields, instanceFields]
      have htexts : ∀ text ∈ boundTexts bindings,
          (Package.empty params.get? lib.rounds).render text =
            (Package.empty params'.get? lib.rounds).render text := by
        intro text htext
        exact Package.render_congr (h text (List.mem_cons_of_mem _ htext))
      simp only [bindFields_congr htexts name]
    simp only [hfields]

/-- They also give the same tasks of it. -/
theorem Step.tasks_congr {k : Compiler Field.Params} {rounds : Nat}
    (h : ∀ text ∈ s.texts, Template.render params.get? rounds text =
      Template.render params'.get? rounds text)
    {expand : List String → List Step → Field.Params → RecipeBuild} {above : List String}
    {template : String} {entry : Build.Entry Field.Params Empty}
    (hentry : s.entry lib expand above params = .inl (template, entry)) (name : String) :
    entry.tasks k (.empty params.get? rounds) name =
      entry.tasks k (.empty params'.get? rounds) name := by
  rw [texts] at h
  rw [Step.entry] at hentry
  cases hshape : s.shape with
  | malformed name => simp [hshape] at hentry
  | task name' commands =>
    simp only [hshape, Sum.inl.injEq, Prod.mk.injEq] at h hentry
    obtain ⟨-, rfl⟩ := hentry
    have hactions : Action.ofCommands (Package.empty params.get? rounds).expand name 0 commands =
        Action.ofCommands (Package.empty params'.get? rounds).expand name 0 commands :=
      Action.ofCommands_congr (fun text htext => h text (List.mem_cons_of_mem _ htext)) name 0
    rw [Build.Entry.tasks, Build.Entry.tasks]
    simp only [Task.ofCommands, bind, Except.bind, hactions]
  | package name' recipe bindings =>
    -- a package sees nothing of what is around it but the fields that were bound
    simp only [hshape] at hentry
    split at hentry
    · simp at hentry
    · obtain ⟨-, rfl⟩ := Prod.mk.inj (Sum.inl.inj hentry)
      rfl

end

/-- The tasks of a package with one step: those of the thing that the step adds. -/
theorem Library.exists_entry_of_compile {lib : Library} {k : Compiler Field.Params}
    {above : List String} {fields : Field.Params} {s : Step} {made : List Task}
    (h : (k.compile fields (lib.expand above [s])).2 = .ok made) :
    ∃ fields' entry name, k.validate fields = .ok fields' ∧
      s.entry lib lib.expand above fields' = .inl (s.name, entry) ∧
      (Package.empty (k.reference fields') k.rounds).render s.name = .ok name ∧
      (entry.tasks k (.empty (k.reference fields') k.rounds) name).2 = .ok made := by
  obtain ⟨fields', p, hfields, hran, rfl⟩ := compile_expand_eq_ok_iff.1 h
  obtain ⟨entry, q, hentry, hq, hrest⟩ := Package.filled_step hran
  obtain ⟨name, made, hrender, -, hmade, -, rfl⟩ := Package.attempt_eq_ok_iff.1 hq
  obtain rfl := Package.filled_nil.1 hrest
  exact ⟨fields', entry, name, hfields, hentry, hrender, hmade⟩

/-! ### Parameters of a configuration -/

theorem mapM_inferred {entries : List (String × Yaml.Value)}
    {values : List (String × Field.Value)}
    (h : entries.mapM (fun (name, v) => do
      return (name, ← (inferredValue name v).mapError (CompileError.validation "params"))) =
        .ok values) :
    values.map Prod.fst = entries.map Prod.fst ∧
      ∀ field, values.lookup field =
        (entries.lookup field).bind fun v => (inferredValue field v).toOption := by
  induction entries generalizing values with
  | nil =>
    obtain rfl := Except.ok.inj h
    exact ⟨rfl, fun _ => rfl⟩
  | cons e entries ih =>
    obtain ⟨name, v⟩ := e
    rw [List.mapM_cons] at h
    obtain ⟨first, hfirst, h⟩ := bind_eq_ok_iff.1 h
    obtain ⟨rest, hrest, h⟩ := bind_eq_ok_iff.1 h
    obtain rfl := Except.ok.inj h
    obtain ⟨hnames, hlookup⟩ := ih hrest
    cases hvalue : inferredValue name v with
    | error e => simp [hvalue, Except.mapError, bind, Except.bind] at hfirst
    | ok value =>
      simp only [hvalue, Except.mapError, bind, Except.bind, pure, Except.pure,
        Except.ok.injEq] at hfirst
      subst hfirst
      refine ⟨by simp [hnames], fun field => ?_⟩
      by_cases hfield : field = name
      · subst hfield
        simp [hvalue, Except.toOption]
      · have hne : (field == name) = false := beq_false_of_ne hfield
        rw [List.lookup_cons, List.lookup_cons, hne, hlookup]

/-- A parameter has the value that stands under its name, whatever the others are. -/
theorem Config.rootParams_get? {c : Config} {params : Field.Params}
    (h : c.rootParams = .ok params) (field : String) :
    params.get? field = (c.params.get? field).bind fun v => (inferredValue field v).toOption := by
  rw [rootParams] at h
  obtain ⟨values, hvalues, h⟩ := bind_eq_ok_iff.1 h
  obtain rfl := Except.ok.inj h
  obtain ⟨hnames, hlookup⟩ := mapM_inferred hvalues
  have hentries : (Named.ofList values).entries = values := by
    refine Named.entries_ofList ?_
    rw [hnames]
    exact c.params.nodup
  have hget : (Named.ofList values).get? field = values.lookup field := by
    rw [Named.get?, hentries]
  rw [Named.get?, ← hlookup, ← hget, Field.Params.inferred, Field.Params.get?]
  simp only [Named.get?_map]
  cases (Named.ofList values).get? field <;> rfl

/-- Parameters whose kinds are those of their values are not changed by validation. -/
theorem Config.get?_validate_rootParams {c : Config} {params fields : Field.Params} {rounds : Nat}
    (h : c.rootParams = .ok params)
    (hfields : (Compiler.forParams rounds).validate params = .ok fields) :
    fields.get? = params.get? := by
  rw [rootParams] at h
  obtain ⟨values, -, h⟩ := bind_eq_ok_iff.1 h
  obtain rfl := Except.ok.inj h
  funext field
  rw [← Compiler.forParams_validate hfields]
  refine Field.Params.get?_validate _ fun spec hspec _ => ?_
  -- a kind that is known from a value comes without a default
  rw [Field.Params.inferred, Named.values, Named.map, List.map_map] at hspec
  obtain ⟨e, -, rfl⟩ := List.mem_map.1 hspec
  rfl

/-! ### Contributions of steps -/

/-- A step with the tasks that come of it in two configurations. -/
structure Contribution where
  /-- The step. -/
  step : Step
  /-- What came of it in the first. -/
  was : List Task
  /-- What comes of it in the second. -/
  is : List Task

/-- The tasks of independent steps are those of each step by itself, in order, also if there are
two ways to compile them. -/
theorem Independent.contributions {compile compile' : List Step → Except CompileError (List Task)}
    {name name' : Step → Except CompileError String} (h : Independent compile name)
    (h' : Independent compile' name') {steps : List Step} {tasks tasks' : List Task}
    (htasks : compile steps = .ok tasks) (htasks' : compile' steps = .ok tasks') :
    ∃ parts : List Contribution, parts.map (·.step) = steps ∧ tasks = parts.flatMap (·.was) ∧
      tasks' = parts.flatMap (·.is) ∧
      ∀ x ∈ parts, compile [x.step] = .ok x.was ∧ compile' [x.step] = .ok x.is := by
  have hnil : ∀ {compile : List Step → Except CompileError (List Task)}
      {name : Step → Except CompileError String} {tasks : List Task}, Independent compile name →
      compile [] = .ok tasks → tasks = [] := by
    intro compile name tasks h hc
    obtain ⟨front, back, hfront, hback, -, -, hboth⟩ := (h.append [] [] tasks).1 hc
    obtain rfl := Except.ok.inj (hc.symm.trans hfront)
    obtain rfl := Except.ok.inj (hfront.symm.trans hback)
    simpa using hboth
  induction steps generalizing tasks tasks' with
  | nil =>
    obtain rfl := hnil h htasks
    obtain rfl := hnil h' htasks'
    exact ⟨[], rfl, rfl, rfl, by simp⟩
  | cons s steps ih =>
    obtain ⟨was, rest, hwas, hrest, -, -, rfl⟩ := (h.append [s] steps tasks).1 htasks
    obtain ⟨is, rest', his, hrest', -, -, rfl⟩ := (h'.append [s] steps tasks').1 htasks'
    obtain ⟨parts, rfl, rfl, rfl, hparts⟩ := ih hrest hrest'
    exact ⟨⟨s, was, is⟩ :: parts, rfl, rfl, rfl, List.forall_mem_cons.2 ⟨⟨hwas, his⟩, hparts⟩⟩

namespace Config

/-- The tasks that come of one step by itself. -/
def compileStep (c : Config) (rounds : Nat) (s : Step) : Except CompileError (List Task) :=
  { c with provision := [s] }.compileWith rounds

/-- The configuration with another value under a parameter. -/
def setParam (c : Config) (param : String) (v : Yaml.Value) : Config :=
  { c with params := c.params.insert param v }

/-- What comes of a step by itself comes of the thing that it adds to a package with the
parameters. -/
theorem exists_entry_of_compileStep {c : Config} {rounds : Nat} {s : Step} {made : List Task}
    (h : c.compileStep rounds s = .ok made) :
    ∃ params fields entry name, c.rootParams = .ok params ∧ fields.get? = params.get? ∧
      s.entry ⟨c.recipes, rounds⟩ (Library.expand ⟨c.recipes, rounds⟩) [] fields =
        .inl (s.name, entry) ∧
      (Package.empty fields.get? rounds).render s.name = .ok name ∧
      (entry.tasks (.forParams rounds) (.empty fields.get? rounds) name).2 = .ok made := by
  rw [compileStep, compileWith_eq, compileBy] at h
  obtain ⟨params, hparams, h⟩ := bind_eq_ok_iff.1 h
  rw [build_eq] at h
  obtain ⟨fields, entry, name, hfields, hentry, hrender, hmade⟩ :=
    Library.exists_entry_of_compile h
  exact ⟨params, fields, entry, name, hparams, get?_validate_rootParams hparams hfields, hentry,
    hrender, hmade⟩

/-- A step that does not read a parameter comes to the same tasks whatever the parameter is. -/
theorem compileStep_setParam {c : Config} {rounds : Nat} {param : String} {v : Yaml.Value}
    {params : Field.Params} {s : Step} {was is : List Task} (hparams : c.rootParams = .ok params)
    (hs : ¬ s.Reads params.get? param) (hwas : c.compileStep rounds s = .ok was)
    (his : (c.setParam param v).compileStep rounds s = .ok is) : is = was := by
  obtain ⟨params₁, fields, entry, name, hparams₁, hfields, hentry, hname, hmade⟩ :=
    exists_entry_of_compileStep hwas
  obtain ⟨params', fields', entry', name', hparams', hfields', hentry', hname', hmade'⟩ :=
    exists_entry_of_compileStep his
  obtain rfl := Except.ok.inj (hparams.symm.trans hparams₁)
  -- The parameters differ in one field, which no text of the step reads.
  have hother : ∀ f, f ≠ param → params.get? f = params'.get? f := by
    intro f hf
    rw [rootParams_get? hparams, rootParams_get? hparams', setParam, Named.get?_insert, if_neg hf]
  have htexts : ∀ text ∈ s.texts,
      Template.render fields.get? rounds text = Template.render fields'.get? rounds text := by
    intro text htext
    rw [hfields, hfields']
    refine Template.render_congr (fun f hf => hother f ?_) rounds
    rintro rfl
    exact hs ⟨text, htext, hf⟩
  have hsame : s.entry ⟨c.recipes, rounds⟩ (Library.expand ⟨c.recipes, rounds⟩) [] fields' =
      .inl (s.name, entry) := by
    rw [← hentry]
    exact (Step.entry_congr htexts _ []).symm
  obtain ⟨-, rfl⟩ := Prod.mk.inj (Sum.inl.inj (hsame.symm.trans hentry'))
  rw [← Package.render_congr (htexts s.name List.mem_cons_self), hname] at hname'
  obtain rfl := Except.ok.inj hname'
  rw [← Step.tasks_congr htexts hentry name, hmade] at hmade'
  exact (Except.ok.inj hmade').symm

/-- If a parameter has another value, of whatever kind, and the configuration compiles with the one
and with the other, then the tasks are both times those of each step by itself, in order, and every
step that does not read the parameter comes to the same tasks, with their names, scripts, labels and
so checksums.  That goes for all tasks of the step, however deep the recipes of which they come. -/
theorem unread_param_inert {c : Config} {rounds : Nat} {param : String} {v : Yaml.Value}
    {tasks tasks' : List Task} (h : c.compileWith rounds = .ok tasks)
    (h' : (c.setParam param v).compileWith rounds = .ok tasks') :
    ∃ params, c.rootParams = .ok params ∧ ∃ parts : List Contribution,
      parts.map (·.step) = c.provision ∧ tasks = parts.flatMap (·.was) ∧
      tasks' = parts.flatMap (·.is) ∧
      ∀ x ∈ parts, c.compileStep rounds x.step = .ok x.was ∧
        (c.setParam param v).compileStep rounds x.step = .ok x.is ∧
        (¬ x.step.Reads params.get? param → x.is = x.was) := by
  obtain ⟨params, hparams, -⟩ := bind_eq_ok_iff.1 h
  obtain ⟨parts, hsteps, hwas, his, hparts⟩ :=
    (c.independent_compileBy (.forParams rounds)).contributions
      ((c.setParam param v).independent_compileBy (.forParams rounds)) h h'
  refine ⟨params, hparams, parts, hsteps, hwas, his, fun x hx => ?_⟩
  obtain ⟨hxwas, hxis⟩ := hparts x hx
  exact ⟨hxwas, hxis, fun hreads => compileStep_setParam hparams hreads hxwas hxis⟩

/-- A step that passes down who is greeted. -/
def greetStep : Step where
  package? := some "p"
  recipe? := some "say"
  bindings := .ofList [("text", .string "\x7b\x7b .who \x7d\x7d!")]

/-- A configuration in which one step reads who is greeted, and the other one a colour. -/
def greeter : Config where
  version := "1.0"
  name := "greeter"
  params := .ofList [("who", .string "world"), ("color", .string "red")]
  recipes := Library.speaker.recipes
  provision := [greetStep,
    { task? := some "paint", commands? := some [.shell "echo \x7b\x7b .color \x7d\x7d"] }]

theorem unread_param_inert_greeter :
    ∃ params, greeter.rootParams = .ok params ∧ ¬ greetStep.Reads params.get? "color" ∧
      ∃ parts : List Contribution, parts.map (·.step) = greeter.provision ∧
        greeter.compileWith 8 = .ok (parts.flatMap (·.was)) ∧
        (greeter.setParam "color" (.bool true)).compileWith 8 = .ok (parts.flatMap (·.is)) ∧
        ∀ x ∈ parts, ¬ x.step.Reads params.get? "color" → x.is = x.was := by
  obtain ⟨tasks, h⟩ : ∃ tasks, greeter.compileWith 8 = .ok tasks :=
    ⟨[⟨"p.hello", [⟨"echo world!", "echo world!"⟩]⟩, ⟨"paint", [⟨"echo red", "echo red"⟩]⟩],
      by decide +kernel⟩
  obtain ⟨tasks', h'⟩ : ∃ tasks',
      (greeter.setParam "color" (.bool true)).compileWith 8 = .ok tasks' :=
    ⟨[⟨"p.hello", [⟨"echo world!", "echo world!"⟩]⟩, ⟨"paint", [⟨"echo true", "echo true"⟩]⟩],
      by decide +kernel⟩
  obtain ⟨params, hparams, parts, hsteps, rfl, rfl, hparts⟩ := unread_param_inert h h'
  refine ⟨params, hparams, ?_, parts, hsteps, h, h', fun x hx => (hparts x hx).2.2⟩
  rintro ⟨text, htext, hreads⟩
  have hwho : params.get? "who" = some (.string "world") := rootParams_get? hparams "who"
  have hfields : ∀ text ∈ greetStep.texts, ∀ f ∈ Template.fields text.toList, f = "who" := by
    decide +kernel
  have hworld : Template.fields "world".toList = [] := by decide +kernel
  have hmem : "color" ∈ ({"who"} : Set String) := by
    refine hreads.mem_of_closed ?_ (hfields text htext)
    rintro g rfl v hv f hf
    obtain rfl := Option.some.inj (hwho.symm.trans hv)
    rw [Field.Value.render, hworld] at hf
    exact absurd hf List.not_mem_nil
  exact absurd hmem (by decide)

end Config

end Provisioning

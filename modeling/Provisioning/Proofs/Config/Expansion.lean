import Provisioning.Proofs.Config.RecipeOrder
import Provisioning.Proofs.Package.Supported
import Provisioning.Recipe

/-!
# The expansion of recipes

A recipe is not expanded inside itself.  Nothing else ends the expansion: the recipes that may
still be expanded, by which `expandSteps` counts, are always those that are not expanded above
(`Library.expand`).

* `Library.expands_iff` : one function follows the steps and looks only at the recipes above, and
  it is the expansion;
* `Library.nestsWithin_expand` : packages are nested no deeper than there are recipes left;
* `Config.Proper.supported_expand` : the expansion of proper steps makes no structural error;
* `Config.expansion_sound` : both, for all configurations and compilers.
-/

namespace Provisioning

/-! ### Recipes left to be expanded -/

namespace Library

/-- The recipes that are not expanded above. -/
def unused (lib : Library) (above : List String) : List String :=
  lib.recipes.names.filter fun name => !above.contains name

/-- What steps add to a package inside the recipes of `above`, outermost first. -/
def expand (lib : Library) (above : List String) (steps : List Step) :
    Field.Params → RecipeBuild :=
  expandSteps lib (lib.unused above) above steps

variable {lib : Library} {above : List String} {recipe : String}

theorem unused_nil (lib : Library) : lib.unused [] = lib.recipes.names := by
  simp [unused]

theorem mem_unused : recipe ∈ lib.unused above ↔ recipe ∈ lib.recipes.names ∧ recipe ∉ above := by
  simp [unused]

theorem erase_unused : (lib.unused above).erase recipe = lib.unused (above ++ [recipe]) := by
  have hnodup : (lib.unused above).Nodup := lib.recipes.nodup.filter _
  rw [hnodup.erase_eq_filter, unused, unused, List.filter_filter]
  refine List.filter_congr fun name _ => ?_
  by_cases h : name = recipe <;> simp [h]

theorem length_unused (h : recipe ∈ lib.unused above) :
    (lib.unused above).length = (lib.unused (above ++ [recipe])).length + 1 := by
  rw [← erase_unused, List.length_erase_of_mem h]
  have := List.length_pos_of_mem h
  omega

/-- What follows from one recipe more above to fewer holds everywhere. -/
theorem induction_above (lib : Library) {motive : List String → Prop}
    (h : ∀ above, (∀ recipe ∈ lib.unused above, motive (above ++ [recipe])) → motive above)
    (above : List String) : motive above := by
  obtain ⟨n, hn⟩ : ∃ n, (lib.unused above).length = n := ⟨_, rfl⟩
  induction n generalizing above with
  | zero =>
    refine h above fun recipe hrecipe => ?_
    simp [List.length_eq_zero_iff.1 hn] at hrecipe
  | succ n ih =>
    refine h above fun recipe hrecipe => ih _ ?_
    have := length_unused hrecipe
    omega

end Library

/-! ### The recursion of the expansion -/

/-- An instance is one of a declared recipe that is not expanded above, with the fields of its
schema bound to the values of the step. -/
theorem instanceFields_inv {lib : Library} {reference : Template.Reference} {above : List String}
    {package recipe : String} {bindings : List (String × Yaml.Value)} {fields : Field.Params}
    {r : Recipe}
    (h : instanceFields lib reference above package recipe bindings = .ok (fields, r)) :
    lib.recipes.get? recipe = some r ∧ recipe ∉ above ∧ ∃ schema, r.schema = .ok schema ∧
      bindFields (Package.empty reference lib.rounds).render package (Field.Params.new schema)
        bindings = .ok fields := by
  rw [instanceFields] at h
  cases hr : lib.recipes.get? recipe with
  | none => simp [hr, throw, throwThe, MonadExceptOf.throw] at h
  | some r' =>
    by_cases habove : recipe ∈ above
    · simp [hr, habove, throw, throwThe, MonadExceptOf.throw, bind, Except.bind] at h
    · cases hschema : r'.schema with
      | error e => simp [hr, habove, hschema, Except.mapError, bind, Except.bind] at h
      | ok schema =>
        simp only [hr, habove, hschema, Except.mapError, bind, Except.bind, pure, Except.pure,
          List.contains_eq_mem, decide_false, Bool.false_eq_true, if_false] at h
        split at h
        · simp at h
        · next params hparams =>
          obtain ⟨rfl, rfl⟩ := Prod.mk.inj (Except.ok.inj h)
          exact ⟨rfl, habove, schema, hschema, hparams⟩

theorem instanceFields_eq_ok {lib : Library} {reference : Template.Reference} {above : List String}
    {package recipe : String} {bindings : List (String × Yaml.Value)} {fields : Field.Params}
    {r : Recipe}
    (h : instanceFields lib reference above package recipe bindings = .ok (fields, r)) :
    lib.recipes.get? recipe = some r ∧ recipe ∉ above := by
  obtain ⟨hr, habove, -⟩ := instanceFields_inv h
  exact ⟨hr, habove⟩

/-- What a step adds to a package, if the steps of recipes are expanded by `expand`. -/
def Step.entry (lib : Library) (expand : List String → List Step → Field.Params → RecipeBuild)
    (above : List String) (params : Field.Params) (s : Step) :
    String × Build.Entry Field.Params Empty ⊕ CompileError :=
  match s.shape with
  | .malformed name => .inr (.unsupported name .malformedStep)
  | .task name commands => .inl (name, .task (.ok commands))
  | .package name recipe bindings =>
    match instanceFields lib params.get? above name recipe bindings with
    | .error e => .inr e
    | .ok (fields, r) =>
      .inl (name, .package fields fun params => expand (above ++ [recipe]) r.steps params)

namespace Library

/-- A function expands steps as they stand, and ends at nothing but a recipe that is expanded
above. -/
def Expands (lib : Library) (expand : List String → List Step → Field.Params → RecipeBuild) :
    Prop :=
  ∀ above steps params,
    expand above steps params = addAll (steps.map (Step.entry lib expand above params))

theorem expands_expand (lib : Library) : lib.Expands lib.expand := by
  intro above steps params
  rw [expand, expandSteps]
  congr 1
  refine List.map_congr_left fun s _ => ?_
  rw [Step.entry]
  cases s.shape with
  | malformed name => rfl
  | task name commands => rfl
  | package name recipe bindings =>
    cases hfields : instanceFields lib params.get? above name recipe bindings with
    | error e => simp only [hfields]
    | ok made =>
      obtain ⟨fields, r⟩ := made
      obtain ⟨hr, habove⟩ := instanceFields_eq_ok hfields
      have hunused : recipe ∈ lib.unused above := mem_unused.2 ⟨Named.mem_names_of_get? hr, habove⟩
      simp only [hfields, hunused, dif_pos, erase_unused]
      rfl

/-- There is one way to expand steps. -/
theorem expands_iff {lib : Library}
    {expand : List String → List Step → Field.Params → RecipeBuild} :
    lib.Expands expand ↔ expand = lib.expand := by
  refine ⟨fun h => ?_, fun h => h ▸ lib.expands_expand⟩
  funext above
  induction above using lib.induction_above with
  | h above ih =>
    funext steps params
    rw [h, lib.expands_expand]
    congr 1
    refine List.map_congr_left fun s _ => ?_
    rw [Step.entry, Step.entry]
    cases s.shape with
    | malformed name => rfl
    | task name commands => rfl
    | package name recipe bindings =>
      cases hfields : instanceFields lib params.get? above name recipe bindings with
      | error e => simp only [hfields]
      | ok made =>
        obtain ⟨fields, r⟩ := made
        obtain ⟨hr, habove⟩ := instanceFields_eq_ok hfields
        simp only [hfields, ih recipe (mem_unused.2 ⟨Named.mem_names_of_get? hr, habove⟩)]

end Library

/-! ### What steps add -/

theorem Step.recipe_of_shape {s : Step} {name recipe : String}
    {bindings : List (String × Yaml.Value)} (h : s.shape = .package name recipe bindings) :
    s.recipe? = some recipe := by
  rw [shape] at h
  split at h
  · split at h <;> simp at h
  · next hrecipe =>
    obtain ⟨-, rfl, -⟩ := StepShape.package.inj h
    exact hrecipe
  · simp at h

/-- A proper step is not malformed: what counts as one of the two kinds is what expands as one. -/
theorem Step.Proper.shape_ne {recipes : Named Recipe} {s : Step} (h : s.Proper recipes)
    (name : String) : s.shape ≠ .malformed name := by
  intro hshape
  rcases h.kind with hkind | hkind
  · simp only [Step.isTask, Bool.and_eq_true, Option.isSome_iff_exists,
      Option.isNone_iff_eq_none] at hkind
    obtain ⟨⟨⟨⟨⟨task, htask⟩, commands, hcommands⟩, hpackage⟩, hrecipe⟩, hbindings⟩ := hkind
    simp [shape, htask, hcommands, hpackage, hrecipe, hbindings] at hshape
  · simp only [Step.isPackage, Bool.and_eq_true, Option.isSome_iff_exists,
      Option.isNone_iff_eq_none] at hkind
    obtain ⟨⟨⟨⟨package, hpackage⟩, recipe, hrecipe⟩, htask⟩, hcommands⟩ := hkind
    simp [shape, htask, hcommands, hpackage, hrecipe] at hshape

theorem supported_renderValue {render : String → Except CompileError String}
    (h : ∀ template, Supported (render template)) (v : Yaml.Value) :
    Supported (renderValue render v) := by
  cases v with
  | string s => exact (h s).bind fun text _ => .ok (Yaml.Value.string text)
  | _ => exact .ok _

theorem supported_bindFields {render : String → Except CompileError String}
    (h : ∀ template, Supported (render template)) (package : String) (params : Field.Params)
    (bindings : List (String × Yaml.Value)) :
    Supported (bindFields render package params bindings) := by
  induction bindings generalizing params with
  | nil => exact .ok params
  | cons binding bindings ih =>
    obtain ⟨field, v⟩ := binding
    rw [bindFields]
    split
    · exact Supported.error_iff.2 (by simp)
    · refine (supported_renderValue h v).bind fun v _ => ?_
      split
      · exact Supported.error_iff.2 (by simp)
      · exact ih _

/-- An instance of a recipe that is declared and not expanded above has no structural error. -/
theorem supported_instanceFields {lib : Library} {above : List String} {recipe : String}
    (h : recipe ∈ lib.unused above) (reference : Template.Reference) (package : String)
    (bindings : List (String × Yaml.Value)) :
    Supported (instanceFields lib reference above package recipe bindings) := by
  obtain ⟨hknown, habove⟩ := Library.mem_unused.1 h
  obtain ⟨r, hr⟩ := Option.isSome_iff_exists.1 (Named.contains_iff_mem_names.2 hknown)
  rw [instanceFields, hr]
  simp only [List.contains_eq_mem, habove, decide_false, Bool.false_eq_true, if_false]
  refine Supported.bind (.mapError (by simp)) fun schema _ => ?_
  refine Supported.bind ?_ fun params _ => .ok (params, r)
  exact supported_bindFields (Package.supported_render _) package _ bindings

/-- A step adds a task, a package for a recipe that is not expanded above, or nothing.  In the last
case the reason is no structural error if the step is proper and its recipe is not expanded
above. -/
theorem Step.entry_cases (lib : Library)
    (expand : List String → List Step → Field.Params → RecipeBuild) (above : List String)
    (params : Field.Params) (s : Step) :
    (∃ name commands, s.entry lib expand above params = .inl (name, .task (.ok commands))) ∨
    (∃ name recipe r fields, s.recipe? = some recipe ∧ lib.recipes.get? recipe = some r ∧
      recipe ∈ lib.unused above ∧ s.entry lib expand above params =
        .inl (name, .package fields fun params => expand (above ++ [recipe]) r.steps params)) ∨
    ∃ e, s.entry lib expand above params = .inr e ∧
      (s.Proper lib.recipes → (∀ recipe, s.recipe? = some recipe → recipe ∉ above) →
        ∀ name fault, e ≠ .unsupported name fault) := by
  rw [entry]
  cases hshape : s.shape with
  | malformed name => exact .inr (.inr ⟨_, rfl, fun h _ => absurd hshape (h.shape_ne name)⟩)
  | task name commands => exact .inl ⟨name, commands, rfl⟩
  | package name recipe bindings =>
    have hrecipe := recipe_of_shape hshape
    cases hfields : instanceFields lib params.get? above name recipe bindings with
    | error e =>
      refine .inr (.inr ⟨e, by simp only [hfields], fun h habove => ?_⟩)
      have hunused := Library.mem_unused.2 ⟨h.known recipe hrecipe, habove recipe hrecipe⟩
      exact Supported.error_iff.1 (hfields ▸ supported_instanceFields hunused _ _ _)
    | ok made =>
      obtain ⟨fields, r⟩ := made
      obtain ⟨hr, habove⟩ := instanceFields_eq_ok hfields
      have hunused := Library.mem_unused.2 ⟨Named.mem_names_of_get? hr, habove⟩
      exact .inr (.inl ⟨name, recipe, r, fields, hrecipe, hr, hunused, by simp only [hfields]⟩)

/-! ### How deep packages are nested -/

section

variable {σ ν : Type}

mutual

/-- What a program adds holds no more than `n` packages one inside another. -/
def Build.NestsWithin : Build σ ν → Nat → Prop
  | .done _, _ => True
  | .note _ next, n => next.NestsWithin n
  | .add _ entry next, n =>
    entry.NestsWithin n ∧ ∀ result tasks, (next result tasks).NestsWithin n

/-- A thing is no more than `n` packages one inside another. -/
def Build.Entry.NestsWithin : Build.Entry σ ν → Nat → Prop
  | .task _, _ => True
  | .package _ _, 0 => False
  | .package _ build, n + 1 => ∀ fields, (build fields).NestsWithin n

end

end

theorem nestsWithin_addAll {n : Nat}
    {things : List (String × Build.Entry Field.Params Empty ⊕ CompileError)}
    (h : ∀ name entry, .inl (name, entry) ∈ things → entry.NestsWithin n) :
    (addAll things).NestsWithin n := by
  induction things with
  | nil => rw [addAll, Build.NestsWithin]; trivial
  | cons thing things ih =>
    cases thing with
    | inr e => rw [addAll, Build.NestsWithin]; trivial
    | inl thing =>
      obtain ⟨name, entry⟩ := thing
      rw [addAll, Build.NestsWithin]
      refine ⟨h name entry List.mem_cons_self, fun result _ => ?_⟩
      cases result with
      | error e => rw [Build.NestsWithin]; trivial
      | ok u => exact ih fun name entry hmem => h name entry (List.mem_cons_of_mem _ hmem)

/-- Packages are nested no deeper than there are recipes left. -/
theorem Library.nestsWithin_expand (lib : Library) (above : List String) (steps : List Step)
    (params : Field.Params) :
    (lib.expand above steps params).NestsWithin (lib.unused above).length := by
  induction above using lib.induction_above generalizing steps params with
  | h above ih =>
    rw [lib.expands_expand]
    refine nestsWithin_addAll fun name entry hmem => ?_
    obtain ⟨s, -, hs⟩ := List.mem_map.1 hmem
    rcases s.entry_cases lib lib.expand above params with
      ⟨_, _, he⟩ | ⟨_, recipe, r, _, -, -, hunused, he⟩ | ⟨_, he, -⟩
    · obtain ⟨-, rfl⟩ := Prod.mk.inj (Sum.inl.inj (hs.symm.trans he))
      rw [Build.Entry.NestsWithin]; trivial
    · obtain ⟨-, rfl⟩ := Prod.mk.inj (Sum.inl.inj (hs.symm.trans he))
      rw [length_unused hunused, Build.Entry.NestsWithin]
      exact ih recipe hunused r.steps
    · simp [he] at hs

/-! ### No structural errors -/

theorem supported_addAll {things : List (String × Build.Entry Field.Params Empty ⊕ CompileError)}
    (h : ∀ name entry, .inl (name, entry) ∈ things → entry.Supported)
    (he : ∀ e, .inr e ∈ things → ∀ name fault, e ≠ .unsupported name fault) :
    (addAll things).Supported := by
  induction things with
  | nil => exact Supported.ok ()
  | cons thing things ih =>
    cases thing with
    | inr e => exact Supported.error_iff.2 (he e List.mem_cons_self)
    | inl thing =>
      obtain ⟨name, entry⟩ := thing
      rw [addAll, Build.Supported]
      refine ⟨h name entry List.mem_cons_self, fun result _ hresult => ?_⟩
      cases result with
      | error e => exact hresult.of_error rfl
      | ok u =>
        exact ih (fun name entry hmem => h name entry (List.mem_cons_of_mem _ hmem))
          fun e hmem => he e (List.mem_cons_of_mem _ hmem)

/-- Proper steps that name no recipe above expand without structural errors: the recipes that they
name stand lower than all above, so no recipe can come up inside itself. -/
theorem Config.Proper.supported_expand {c : Config} (h : c.Proper) {rank : String → Nat}
    (hrank : ∀ name r, c.recipes.get? name = some r →
      ∀ s ∈ r.steps, ∀ used, s.recipe? = some used → rank used < rank name)
    (rounds : Nat) (above : List String) {steps : List Step}
    (hsteps : ∀ s ∈ steps, s.Proper c.recipes)
    (habove : ∀ s ∈ steps, ∀ used, s.recipe? = some used → ∀ a ∈ above, rank used < rank a)
    (params : Field.Params) :
    (Library.expand ⟨c.recipes, rounds⟩ above steps params).Supported := by
  induction above using (Library.mk c.recipes rounds).induction_above generalizing steps params with
  | h above ih =>
    rw [Library.expands_expand]
    refine supported_addAll (fun name entry hmem => ?_) fun e hmem => ?_
    · obtain ⟨s, hstep, hs⟩ := List.mem_map.1 hmem
      rcases s.entry_cases ⟨c.recipes, rounds⟩ (Library.expand ⟨c.recipes, rounds⟩) above params
        with ⟨_, _, he⟩ | ⟨_, recipe, r, _, hrecipe, hr, hunused, he⟩ | ⟨_, he, -⟩
      · obtain ⟨-, rfl⟩ := Prod.mk.inj (Sum.inl.inj (hs.symm.trans he))
        exact Supported.ok _
      · obtain ⟨-, rfl⟩ := Prod.mk.inj (Sum.inl.inj (hs.symm.trans he))
        refine ih recipe hunused (h.steps recipe r hr) fun s' hs' used hused a ha => ?_
        have hlt := hrank recipe r hr s' hs' used hused
        rcases List.mem_append.1 ha with ha | ha
        · exact Nat.lt_trans hlt (habove s hstep recipe hrecipe a ha)
        · rwa [List.mem_singleton.1 ha]
      · simp [he] at hs
    · obtain ⟨s, hstep, hs⟩ := List.mem_map.1 hmem
      rcases s.entry_cases ⟨c.recipes, rounds⟩ (Library.expand ⟨c.recipes, rounds⟩) above params
        with ⟨_, _, he⟩ | ⟨_, _, _, _, -, -, -, he⟩ | ⟨e', he, hsupported⟩
      · simp [he] at hs
      · simp [he] at hs
      · obtain rfl := Sum.inr.inj (hs.symm.trans he)
        refine hsupported (hsteps s hstep) fun recipe hrecipe hin => ?_
        exact Nat.lt_irrefl _ (habove s hstep recipe hrecipe recipe hin)

/-! ### Configurations -/

namespace Config

/-- The tasks of a configuration by any compiler. -/
def compileBy (c : Config) (k : Compiler Field.Params) : Except CompileError (List Task) := do
  let params ← c.rootParams
  (k.compile params (c.build k.rounds)).2

theorem compileWith_eq (c : Config) (rounds : Nat) :
    c.compileWith rounds = c.compileBy (.forParams rounds) := rfl

theorem build_eq (c : Config) (rounds : Nat) :
    c.build rounds = Library.expand ⟨c.recipes, rounds⟩ [] c.provision := by
  rw [build, Library.expand, Library.unused_nil]

theorem supported_rootParams (c : Config) : Supported c.rootParams := by
  rw [rootParams]
  refine Supported.bind (.mapM fun entry _ => ?_) fun values _ => .ok _
  exact Supported.bind (.mapError (by simp)) fun v _ => .ok _

theorem Proper.supported_compileBy {c : Config} (h : c.Proper) (k : Compiler Field.Params) :
    Supported (c.compileBy k) := by
  obtain ⟨rank, hrank⟩ := h.ranked
  refine c.supported_rootParams.bind fun params _ => k.supported_compile params fun fields => ?_
  rw [build_eq]
  exact h.supported_expand hrank k.rounds [] h.provision (by simp) fields

/-- A configuration without faults compiles without structural errors, whatever the compiler does
with fields and references.  With faults or without: there is exactly one way to expand steps that
ends at nothing but recipes expanded above, a configuration is expanded that way, and no more
recipes are ever inside one another than are declared. -/
theorem expansion_sound (c : Config) :
    (c.issues = [] → ∀ (k : Compiler Field.Params) name fault,
      c.compileBy k ≠ .error (.unsupported name fault)) ∧
    ∀ rounds, ∃ expand : List String → List Step → Field.Params → RecipeBuild,
      (∀ expand', Library.Expands ⟨c.recipes, rounds⟩ expand' ↔ expand' = expand) ∧
      c.build rounds = expand [] c.provision ∧
      ∀ params, (c.build rounds params).NestsWithin c.recipes.size := by
  refine ⟨fun h k => (proper_of_issues h).supported_compileBy k, fun rounds => ?_⟩
  refine ⟨_, fun _ => Library.expands_iff, c.build_eq rounds, fun params => ?_⟩
  have hnests := Library.nestsWithin_expand ⟨c.recipes, rounds⟩ [] c.provision params
  rw [Library.unused_nil] at hnests
  rw [build_eq]
  simpa [Named.names, Named.size] using hnests

/-- A configuration that uses one recipe at three depths. -/
def rack : Config where
  version := "1.0"
  name := "rack"
  recipes := .ofList [
    ("rack", { steps := [{ package? := some "a", recipe? := some "host" },
                         { package? := some "b", recipe? := some "base" }] }),
    ("host", { steps := [{ package? := some "c", recipe? := some "base" }] }),
    ("base", { steps := [{ task? := some "hello", commands? := some [.shell "echo hello"] }] })]
  provision := [{ package? := some "r", recipe? := some "rack" },
                { package? := some "s", recipe? := some "base" }]

theorem rack_expansion_sound : rack.issues = [] ∧
    (∀ (k : Compiler Field.Params) name fault,
      rack.compileBy k ≠ .error (.unsupported name fault)) ∧
    ∃ tasks, rack.compileWith 8 = .ok tasks ∧
      tasks.map Task.name = ["r.a.c.hello", "r.b.hello", "s.hello"] := by
  have hissues : rack.issues = [] := by decide +kernel
  refine ⟨hissues, rack.expansion_sound.1 hissues, [⟨"r.a.c.hello", [⟨"echo hello", "echo hello"⟩]⟩,
    ⟨"r.b.hello", [⟨"echo hello", "echo hello"⟩]⟩, ⟨"s.hello", [⟨"echo hello", "echo hello"⟩]⟩],
    ?_, rfl⟩
  decide +kernel

end Config

end Provisioning

import Provisioning.Proofs.Config.Expansion
import Provisioning.Proofs.Package.Refusal

/-!
# Steps are independent of each other

Things that are added to a package one after another see nothing of each other but which names are
taken.  So a list of things may be cut anywhere: the two parts fill a package each, and together
they fill the join of the two (`Package.filled_append_iff`) unless a name stands in both
(`Package.Apart`).

* `Package.attempt_iff` : a thing is added as to an empty package, which is then joined;
* `Package.filled_iff` : so are all the things of a list, one after another;
* `Independent` : what this says of the tasks that come of lists of steps;
* `Config.steps_independent` : it holds of the steps of every configuration and of every instance
  of a recipe.
-/

namespace Provisioning

/-! ### Joining packages -/

namespace Package

/-- The package before anything was added to it. -/
def bare (p : Package) : Package := .empty p.reference p.rounds

/-- The package with nothing but one thing in it. -/
def one (p : Package) (name : String) (tasks : List Task) : Package :=
  p.bare.extend name tasks

/-- The package with what was added to another one after what was added to it. -/
def join (p q : Package) : Package where
  reference := p.reference
  rounds := p.rounds
  siblings := p.siblings ++ q.siblings
  fullNames := p.fullNames ++ q.fullNames
  tasks := p.tasks ++ q.tasks

/-- No name is taken in both packages. -/
structure Apart (p q : Package) : Prop where
  /-- No two things have one name. -/
  siblings : p.siblings.Disjoint q.siblings
  /-- No two tasks have one name. -/
  tasks : p.fullNames.Disjoint q.fullNames

variable {p p' q r : Package}

@[simp] theorem bare_tasks (p : Package) : p.bare.tasks = [] := rfl

@[simp] theorem one_tasks (p : Package) (name : String) (tasks : List Task) :
    (p.one name tasks).tasks = tasks := rfl

@[simp] theorem join_tasks (p q : Package) : (p.join q).tasks = p.tasks ++ q.tasks := rfl

@[simp] theorem bare_join (p q : Package) : (p.join q).bare = p.bare := rfl

@[simp] theorem render_join (p q : Package) (template : String) :
    (p.join q).render template = p.render template := rfl

@[simp] theorem join_bare (p q : Package) : p.join q.bare = p := by
  simp [join, bare, empty]

theorem join_assoc (p q r : Package) : (p.join q).join r = p.join (q.join r) := by
  simp [join]

theorem bare_apart (p q : Package) : p.bare.Apart q :=
  ⟨List.disjoint_nil_left _, List.disjoint_nil_left _⟩

theorem apart_bare (p q : Package) : p.Apart q.bare :=
  ⟨List.disjoint_nil_right _, List.disjoint_nil_right _⟩

theorem apart_one_iff {name : String} {tasks : List Task} :
    p.Apart (p.one name tasks) ↔ name ∉ p.siblings ∧ ∀ t ∈ tasks, t.name ∉ p.fullNames := by
  constructor
  · rintro ⟨hsiblings, htasks⟩
    refine ⟨List.disjoint_singleton.1 hsiblings, fun t ht hmem => ?_⟩
    exact htasks hmem (List.mem_map.2 ⟨t, ht, rfl⟩)
  · rintro ⟨hname, hnew⟩
    refine ⟨List.disjoint_singleton.2 hname, fun n hn hmem => ?_⟩
    obtain ⟨t, ht, rfl⟩ := List.mem_map.1 hmem
    exact hnew t ht hn

theorem apart_join_left : (p.join q).Apart r ↔ p.Apart r ∧ q.Apart r := by
  constructor
  · rintro ⟨hsiblings, htasks⟩
    obtain ⟨hp, hq⟩ := List.disjoint_append_left.1 hsiblings
    obtain ⟨hp', hq'⟩ := List.disjoint_append_left.1 htasks
    exact ⟨⟨hp, hp'⟩, ⟨hq, hq'⟩⟩
  · rintro ⟨hp, hq⟩
    exact ⟨List.disjoint_append_left.2 ⟨hp.siblings, hq.siblings⟩,
      List.disjoint_append_left.2 ⟨hp.tasks, hq.tasks⟩⟩

theorem apart_join_right : p.Apart (q.join r) ↔ p.Apart q ∧ p.Apart r := by
  constructor
  · rintro ⟨hsiblings, htasks⟩
    obtain ⟨hq, hr⟩ := List.disjoint_append_right.1 hsiblings
    obtain ⟨hq', hr'⟩ := List.disjoint_append_right.1 htasks
    exact ⟨⟨hq, hq'⟩, ⟨hr, hr'⟩⟩
  · rintro ⟨hq, hr⟩
    exact ⟨List.disjoint_append_right.2 ⟨hq.siblings, hr.siblings⟩,
      List.disjoint_append_right.2 ⟨hq.tasks, hr.tasks⟩⟩

/-! ### One thing -/

/-- A thing that is added reads nothing of the package but what its templates refer to. -/
theorem tasks_bare {σ ν : Type} (k : Compiler σ) (p : Package) (entry : Build.Entry σ ν)
    (name : String) : (entry.tasks k p.bare name).2 = (entry.tasks k p name).2 := by
  cases entry with
  | task commands => rfl
  | package fields build => rfl

/-- What can be added comes to the same in an empty package, and is apart from what is there. -/
theorem attempt_eq_ok_iff {σ ν : Type} {k : Compiler σ} {template : String}
    {entry : Build.Entry σ ν} :
    p.attempt k template entry = (p', .ok ()) ↔
      ∃ name made, p.render template = .ok name ∧ nameFault? name = none ∧
        (entry.tasks k p.bare name).2 = .ok made ∧ p.Apart (p.one name made) ∧
        p' = p.join (p.one name made) := by
  rw [attempt_eq, undergo_add]
  constructor
  · intro h
    cases hname : p.freshName template with
    | error e => simp [hname] at h
    | ok name =>
      rw [hname] at h
      obtain ⟨made, hmade, hnew, rfl⟩ := undergo_commit_eq_ok_iff.1 h
      obtain ⟨hrender, hfault, hsibling⟩ := freshName_eq_ok_iff.1 hname
      rw [← tasks_bare] at hmade
      exact ⟨name, made, hrender, hfault, hmade, apart_one_iff.2 ⟨hsibling, hnew⟩, rfl⟩
  · rintro ⟨name, made, hrender, hfault, hmade, hapart, rfl⟩
    obtain ⟨hsibling, hnew⟩ := apart_one_iff.1 hapart
    rw [tasks_bare] at hmade
    rw [freshName_eq_ok_iff.2 ⟨hrender, hfault, hsibling⟩]
    exact undergo_commit_eq_ok_iff.2 ⟨made, hmade, hnew, rfl⟩

/-- A thing is added as to an empty package, which is then joined to the one that is there. -/
theorem attempt_iff {σ ν : Type} {k : Compiler σ} {template : String} {entry : Build.Entry σ ν} :
    p.attempt k template entry = (p', .ok ()) ↔
      ∃ q, p.bare.attempt k template entry = (q, .ok ()) ∧ p.Apart q ∧ p' = p.join q := by
  constructor
  · intro h
    obtain ⟨name, made, hrender, hfault, hmade, hapart, rfl⟩ := attempt_eq_ok_iff.1 h
    refine ⟨p.one name made, ?_, hapart, rfl⟩
    exact attempt_eq_ok_iff.2 ⟨name, made, hrender, hfault, hmade, bare_apart _ _, rfl⟩
  · rintro ⟨q, h, hapart, rfl⟩
    obtain ⟨name, made, hrender, hfault, hmade, -, rfl⟩ := attempt_eq_ok_iff.1 h
    exact attempt_eq_ok_iff.2 ⟨name, made, hrender, hfault, hmade, hapart, rfl⟩

/-! ### Things one after another -/

/-- Things that are added one after another, none refused, make one package of another. -/
def Filled (k : Compiler Field.Params) (p : Package)
    (things : List (String × Build.Entry Field.Params Empty ⊕ CompileError)) (p' : Package) :
    Prop :=
  ((addAll things).run k p).2 = (p', .ok ())

variable {k : Compiler Field.Params}
  {things things' : List (String × Build.Entry Field.Params Empty ⊕ CompileError)}

theorem filled_nil : p.Filled k [] p' ↔ p' = p := by
  rw [Filled, addAll, Build.run, Prod.mk.injEq, eq_comm]
  exact ⟨And.left, fun h => ⟨h, rfl⟩⟩

theorem not_filled_error (e : CompileError) : ¬ p.Filled k (.inr e :: things) p' := by
  simp [Filled, addAll, Build.run]

theorem filled_cons {template : String} {entry : Build.Entry Field.Params Empty} :
    p.Filled k (.inl (template, entry) :: things) p' ↔
      ∃ q, p.attempt k template entry = (q, .ok ()) ∧ q.Filled k things p' := by
  rw [Filled, addAll, Build.run_add]
  obtain ⟨q, result⟩ := p.attempt k template entry
  cases result with
  | error e => simp [Build.run]
  | ok u => simp [Filled]

theorem filled_append :
    p.Filled k (things ++ things') p' ↔ ∃ q, p.Filled k things q ∧ q.Filled k things' p' := by
  induction things generalizing p with
  | nil => simp [filled_nil]
  | cons thing things ih =>
    cases thing with
    | inr e => simp [not_filled_error]
    | inl thing =>
      obtain ⟨template, entry⟩ := thing
      simp only [List.cons_append, filled_cons, ih]
      constructor
      · rintro ⟨r, hr, q, hq, h⟩
        exact ⟨q, ⟨r, hr, hq⟩, h⟩
      · rintro ⟨q, ⟨r, hr, hq⟩, h⟩
        exact ⟨r, hr, q, hq, h⟩

theorem bare_of_attempt {template : String} {entry : Build.Entry Field.Params Empty}
    (h : p.attempt k template entry = (p', .ok ())) : p'.bare = p.bare := by
  obtain ⟨q, -, -, rfl⟩ := attempt_iff.1 h
  exact bare_join p q

/-- The full names that are taken in a package that was empty are those of its tasks. -/
theorem Filled.fullNames (h : p.bare.Filled k things q) : q.fullNames = q.tasks.map Task.name := by
  have hsound := Build.sound_run k (addAll things) p.bare (sound_empty p.reference p.rounds)
  rw [h] at hsound
  exact hsound.fullNames

/-- A package is filled like an empty one, which is then joined to it. -/
theorem filled_iff :
    p.Filled k things p' ↔ ∃ q, p.bare.Filled k things q ∧ p.Apart q ∧ p' = p.join q := by
  -- The rest of the things fills what the first one left, on either side: `p` joined with it, or
  -- it alone.  Both times it is filled apart and joined, so only the brackets differ.
  induction things generalizing p p' with
  | nil =>
    simp only [filled_nil]
    constructor
    · rintro rfl
      exact ⟨p'.bare, rfl, apart_bare p' p', (join_bare p' p').symm⟩
    · rintro ⟨q, rfl, -, rfl⟩
      exact join_bare p p
  | cons thing things ih =>
    cases thing with
    | inr e => simp [not_filled_error]
    | inl thing =>
      obtain ⟨template, entry⟩ := thing
      constructor
      · intro h
        obtain ⟨p₁, hattempt, hrest⟩ := filled_cons.1 h
        obtain ⟨q₁, hq₁, hapart₁, rfl⟩ := attempt_iff.1 hattempt
        obtain ⟨q₂, hq₂, hapart₂, rfl⟩ := ih.1 hrest
        obtain ⟨hapart₂, hapart₁₂⟩ := apart_join_left.1 hapart₂
        refine ⟨q₁.join q₂, filled_cons.2 ⟨q₁, hq₁, ih.2 ⟨q₂, ?_, hapart₁₂, rfl⟩⟩,
          apart_join_right.2 ⟨hapart₁, hapart₂⟩, p.join_assoc q₁ q₂⟩
        rw [bare_of_attempt hq₁]
        exact hq₂
      · rintro ⟨q, h, hapart, rfl⟩
        obtain ⟨q₁, hq₁, hrest⟩ := filled_cons.1 h
        obtain ⟨q₂, hq₂, hapart₁₂, rfl⟩ := ih.1 hrest
        obtain ⟨hapart₁, hapart₂⟩ := apart_join_right.1 hapart
        refine filled_cons.2 ⟨p.join q₁, attempt_iff.2 ⟨q₁, hq₁, hapart₁, rfl⟩,
          ih.2 ⟨q₂, ?_, apart_join_left.2 ⟨hapart₂, hapart₁₂⟩, (p.join_assoc q₁ q₂).symm⟩⟩
        rw [bare_of_attempt hq₁] at hq₂
        exact hq₂

/-- Two lists of things fill an empty package together if they fill one each and these are apart;
the package is the join of the two. -/
theorem filled_append_iff :
    p.bare.Filled k (things ++ things') p' ↔
      ∃ q r, p.bare.Filled k things q ∧ p.bare.Filled k things' r ∧ q.Apart r ∧
        p' = q.join r := by
  have hbare : ∀ {q}, p.bare.Filled k things q → q.bare = p.bare := by
    intro q h
    obtain ⟨r, -, -, rfl⟩ := filled_iff.1 h
    exact bare_join p.bare r
  rw [filled_append]
  constructor
  · rintro ⟨q, hq, h⟩
    obtain ⟨r, hr, hapart, rfl⟩ := filled_iff.1 h
    rw [hbare hq] at hr
    exact ⟨q, r, hq, hr, hapart, rfl⟩
  · rintro ⟨q, r, hq, hr, hapart, rfl⟩
    rw [← hbare hq] at hr
    exact ⟨q, hq, filled_iff.2 ⟨r, hr, hapart, rfl⟩⟩

end Package

/-! ### Steps -/

/-- The name that a shape tells. -/
def StepShape.name : StepShape → String
  | .task name _ => name
  | .package name _ _ => name
  | .malformed name => name

theorem Step.name_shape (s : Step) : s.shape.name = s.name := by
  rw [shape]
  split
  · next task _ htask _ _ _ =>
    have hname : s.name = task := by rw [name, htask]
    split
    · exact hname.symm
    · rfl
  · next htask _ hpackage _ => simp only [StepShape.name, name, htask, hpackage]
  · rfl

/-- What a step adds stands under the step's name. -/
theorem Step.name_of_entry {lib : Library}
    {expand : List String → List Step → Field.Params → RecipeBuild} {above : List String}
    {params : Field.Params} {s : Step} {template : String}
    {entry : Build.Entry Field.Params Empty}
    (h : s.entry lib expand above params = .inl (template, entry)) : template = s.name := by
  rw [← s.name_shape]
  rw [Step.entry] at h
  cases hshape : s.shape with
  | malformed name => simp [hshape] at h
  | task name commands =>
    simp only [hshape, Sum.inl.injEq, Prod.mk.injEq] at h
    exact h.1.symm
  | package name recipe bindings =>
    simp only [hshape] at h
    split at h
    · simp at h
    · exact (Prod.mk.inj (Sum.inl.inj h)).1.symm

/-- The thing that a step adds is added first under the step's name, and then the others. -/
theorem Package.filled_step {k : Compiler Field.Params} {lib : Library}
    {expand : List String → List Step → Field.Params → RecipeBuild} {above : List String}
    {params : Field.Params} {s : Step} {p p' : Package}
    {things : List (String × Build.Entry Field.Params Empty ⊕ CompileError)}
    (h : p.Filled k (s.entry lib expand above params :: things) p') :
    ∃ entry q, s.entry lib expand above params = .inl (s.name, entry) ∧
      p.attempt k s.name entry = (q, .ok ()) ∧ q.Filled k things p' := by
  cases hs : s.entry lib expand above params with
  | inr e =>
    rw [hs] at h
    exact absurd h (not_filled_error e)
  | inl thing =>
    obtain ⟨template, entry⟩ := thing
    rw [hs] at h
    obtain rfl := Step.name_of_entry hs
    obtain ⟨q, hq, hrest⟩ := filled_cons.1 h
    exact ⟨entry, q, rfl, hq, hrest⟩

/-- The things that steps add stand under the names of the steps. -/
theorem Package.Filled.siblings {k : Compiler Field.Params} {lib : Library}
    {expand : List String → List Step → Field.Params → RecipeBuild} {above : List String}
    {params : Field.Params} {steps : List Step} {p p' : Package}
    (h : p.Filled k (steps.map (Step.entry lib expand above params)) p') :
    p'.siblings.map .ok = p.siblings.map .ok ++ steps.map fun s => p.render s.name := by
  induction steps generalizing p with
  | nil =>
    obtain rfl := filled_nil.1 h
    simp
  | cons s steps ih =>
    rw [List.map_cons] at h
    obtain ⟨entry, q, -, hq, hrest⟩ := filled_step h
    obtain ⟨name, made, hrender, -, -, -, rfl⟩ := attempt_eq_ok_iff.1 hq
    have hsiblings : (p.join (p.one name made)).siblings = p.siblings ++ [name] := rfl
    simp [ih hrest, hsiblings, hrender]

/-- Packages filled with the things of two lists of steps are apart if no name of a step stands for
the same as one of the other list and no task has the name of one of the other package. -/
theorem Package.Filled.apart_iff {k : Compiler Field.Params} {lib : Library}
    {expand : List String → List Step → Field.Params → RecipeBuild} {above : List String}
    {params : Field.Params} {xs ys : List Step} {p q r : Package}
    (hq : p.bare.Filled k (xs.map (Step.entry lib expand above params)) q)
    (hr : p.bare.Filled k (ys.map (Step.entry lib expand above params)) r) :
    q.Apart r ↔ (∀ x ∈ xs, ∀ y ∈ ys, p.bare.render x.name ≠ p.bare.render y.name) ∧
      ∀ t ∈ q.tasks, ∀ t' ∈ r.tasks, t.name ≠ t'.name := by
  have hinj : Function.Injective (Except.ok (ε := CompileError) (α := String)) :=
    fun _ _ => Except.ok.inj
  have hsiblings : q.siblings.Disjoint r.siblings ↔
      ∀ x ∈ xs, ∀ y ∈ ys, p.bare.render x.name ≠ p.bare.render y.name := by
    rw [← List.Disjoint.map_iff hinj, hq.siblings, hr.siblings]
    simp [List.disjoint_iff_ne, bare, empty]
  have htasks : q.fullNames.Disjoint r.fullNames ↔
      ∀ t ∈ q.tasks, ∀ t' ∈ r.tasks, t.name ≠ t'.name := by
    simp [List.disjoint_iff_ne, hq.fullNames, hr.fullNames]
  rw [← hsiblings, ← htasks]
  exact ⟨fun h => ⟨h.siblings, h.tasks⟩, fun h => ⟨h.1, h.2⟩⟩

/-! ### Lists of steps -/

/-- Steps are independent of each other, as far as a way to compile lists of them goes and a way to
name them. -/
structure Independent (compile : List Step → Except CompileError (List Task))
    (name : Step → Except CompileError String) : Prop where
  /-- Two lists come to tasks together if each does and no name of a step or of a task stands on
  both sides.  They come to the tasks of the one and then those of the other. -/
  append : ∀ xs ys tasks, compile (xs ++ ys) = .ok tasks ↔
    ∃ front back, compile xs = .ok front ∧ compile ys = .ok back ∧
      (∀ x ∈ xs, ∀ y ∈ ys, name x ≠ name y) ∧
      (∀ t ∈ front, ∀ t' ∈ back, t.name ≠ t'.name) ∧ tasks = front ++ back
  /-- If some of the steps are replaced, the tasks of the steps around them stay as they are, with
  their names, scripts and so checksums. -/
  edit : ∀ front old new back tasks tasks', compile (front ++ old ++ back) = .ok tasks →
    compile (front ++ new ++ back) = .ok tasks' →
      ∃ before was is after, compile front = .ok before ∧ compile old = .ok was ∧
        compile new = .ok is ∧ compile back = .ok after ∧ tasks = before ++ was ++ after ∧
        tasks' = before ++ is ++ after

/-- What holds of two lists says what happens when steps are replaced. -/
theorem Independent.of_append {compile : List Step → Except CompileError (List Task)}
    {name : Step → Except CompileError String}
    (h : ∀ xs ys tasks, compile (xs ++ ys) = .ok tasks ↔
      ∃ front back, compile xs = .ok front ∧ compile ys = .ok back ∧
        (∀ x ∈ xs, ∀ y ∈ ys, name x ≠ name y) ∧
        (∀ t ∈ front, ∀ t' ∈ back, t.name ≠ t'.name) ∧ tasks = front ++ back) :
    Independent compile name where
  append := h
  edit := by
    have hcut : ∀ {front steps back tasks}, compile (front ++ steps ++ back) = .ok tasks →
        ∃ before made after, compile front = .ok before ∧ compile steps = .ok made ∧
          compile back = .ok after ∧ tasks = before ++ made ++ after := by
      intro front steps back tasks hall
      obtain ⟨left, after, hleft, hafter, -, -, rfl⟩ := (h _ _ _).1 hall
      obtain ⟨before, made, hbefore, hmade, -, -, rfl⟩ := (h _ _ _).1 hleft
      exact ⟨before, made, after, hbefore, hmade, hafter, rfl⟩
    intro front old new back tasks tasks' hold hnew
    obtain ⟨before, was, after, hbefore, hwas, hafter, rfl⟩ := hcut hold
    obtain ⟨before', is, after', hbefore', his, hafter', rfl⟩ := hcut hnew
    -- The steps around come to the same tasks both times.
    obtain rfl := Except.ok.inj (hbefore.symm.trans hbefore')
    obtain rfl := Except.ok.inj (hafter.symm.trans hafter')
    exact ⟨before, was, is, after, hbefore, hwas, his, hafter, rfl, rfl⟩

/-- The name of a step in a package with these fields. -/
def Compiler.stepName (k : Compiler Field.Params) (fields : Field.Params) (s : Step) :
    Except CompileError String := do
  let fields ← (k.validate fields).mapError (.validation s.name)
  (Package.empty (k.reference fields) k.rounds).render s.name

/-- Steps come to tasks in an outermost package if the fields are valid and what the steps add fills
it. -/
theorem Library.compile_expand_eq_ok_iff {lib : Library} {k : Compiler Field.Params}
    {above : List String} {fields : Field.Params} {steps : List Step} {tasks : List Task} :
    (k.compile fields (lib.expand above steps)).2 = .ok tasks ↔
      ∃ fields' p, k.validate fields = .ok fields' ∧
        (Package.empty (k.reference fields') k.rounds).Filled k
          (steps.map (Step.entry lib lib.expand above fields')) p ∧ tasks = p.tasks := by
  simp only [k.compile_eq_ok_iff, Package.Filled, lib.expands_expand above steps]

/-- Steps in an outermost package are independent of each other. -/
theorem Library.independent_compile (lib : Library) (k : Compiler Field.Params)
    (above : List String) (fields : Field.Params) :
    Independent (fun steps => (k.compile fields (lib.expand above steps)).2)
      (k.stepName fields) := by
  refine .of_append fun xs ys tasks => ?_
  cases hfields : k.validate fields with
  | error e => simp [Compiler.compile, hfields]
  | ok fields' =>
    have hcompile : ∀ steps tasks, (k.compile fields (lib.expand above steps)).2 = .ok tasks ↔
        ∃ p, (Package.empty (k.reference fields') k.rounds).bare.Filled k
          (steps.map (Step.entry lib lib.expand above fields')) p ∧ tasks = p.tasks := by
      intro steps tasks
      rw [compile_expand_eq_ok_iff]
      constructor
      · rintro ⟨fields'', p, hfields', hfilled, rfl⟩
        obtain rfl := Except.ok.inj (hfields.symm.trans hfields')
        exact ⟨p, hfilled, rfl⟩
      · rintro ⟨p, hfilled, rfl⟩
        exact ⟨fields', p, hfields, hfilled, rfl⟩
    have hname : ∀ s, k.stepName fields s =
        (Package.empty (k.reference fields') k.rounds).bare.render s.name := by
      intro s
      rw [Compiler.stepName, hfields]
      rfl
    simp only [hcompile, hname, List.map_append]
    constructor
    · rintro ⟨p, hp, rfl⟩
      obtain ⟨q, r, hq, hr, hapart, rfl⟩ := Package.filled_append_iff.1 hp
      obtain ⟨hnames, htasks⟩ := (hq.apart_iff hr).1 hapart
      exact ⟨q.tasks, r.tasks, ⟨q, hq, rfl⟩, ⟨r, hr, rfl⟩, hnames, htasks, rfl⟩
    · rintro ⟨_, _, ⟨q, hq, rfl⟩, ⟨r, hr, rfl⟩, hnames, htasks, rfl⟩
      refine ⟨q.join r, ?_, rfl⟩
      exact Package.filled_append_iff.2 ⟨q, r, hq, hr, (hq.apart_iff hr).2 ⟨hnames, htasks⟩, rfl⟩

/-! ### Instances of recipes -/

/-- Steps are independent of each other also if a name is put before those of the tasks. -/
theorem Independent.below {compile compile' : List Step → Except CompileError (List Task)}
    {name : Step → Except CompileError String} {package : String} (h : Independent compile name)
    (h' : ∀ steps tasks, compile' steps = .ok tasks ↔
      ∃ made, compile steps = .ok made ∧ tasks = made.map (Task.below package)) :
    Independent compile' name := by
  have hbelow : ∀ front back : List Task,
      (∀ t ∈ front.map (Task.below package), ∀ t' ∈ back.map (Task.below package),
        t.name ≠ t'.name) ↔ ∀ t ∈ front, ∀ t' ∈ back, t.name ≠ t'.name := by
    intro front back
    simp only [List.forall_mem_map]
    constructor
    · intro hne t ht t' ht' he
      exact hne t ht t' ht' (by rw [Task.below, Task.below, he])
    · intro hne t ht t' ht' he
      exact hne t ht t' ht' (Task.below_injective package he)
  refine .of_append fun xs ys tasks => ?_
  constructor
  · intro hall
    obtain ⟨made, hmade, rfl⟩ := (h' _ _).1 hall
    obtain ⟨front, back, hfront, hback, hnames, htasks, rfl⟩ := (h.append _ _ _).1 hmade
    exact ⟨_, _, (h' _ _).2 ⟨front, hfront, rfl⟩, (h' _ _).2 ⟨back, hback, rfl⟩, hnames,
      (hbelow front back).2 htasks, List.map_append⟩
  · rintro ⟨_, _, hfront', hback', hnames, htasks, rfl⟩
    obtain ⟨front, hfront, rfl⟩ := (h' _ _).1 hfront'
    obtain ⟨back, hback, rfl⟩ := (h' _ _).1 hback'
    refine (h' _ _).2 ⟨front ++ back, ?_, List.map_append.symm⟩
    exact (h.append _ _ _).2 ⟨front, back, hfront, hback, hnames, (hbelow front back).1 htasks, rfl⟩

namespace Library

variable {lib : Library} {above : List String} {recipe : String}

/-- The library in which a recipe has other steps. -/
def withSteps (lib : Library) (recipe : String) (steps : List Step) : Library :=
  match lib.recipes.get? recipe with
  | none => lib
  | some r => { lib with recipes := lib.recipes.insert recipe { r with steps } }

theorem rounds_withSteps (steps : List Step) :
    (lib.withSteps recipe steps).rounds = lib.rounds := by
  rw [withSteps]
  split
  · rfl
  · rfl

theorem get?_withSteps (steps : List Step) (other : String) :
    (lib.withSteps recipe steps).recipes.get? other =
      (lib.recipes.get? other).map fun r => if other = recipe then { r with steps } else r := by
  rw [withSteps]
  cases hr : lib.recipes.get? recipe with
  | none =>
    by_cases h : other = recipe
    · subst h
      simp [hr]
    · simp [h]
  | some r =>
    by_cases h : other = recipe
    · subst h
      simp [Named.get?_insert, hr]
    · simp [Named.get?_insert, h]

/-- The fields of an instance do not depend on the steps of recipes. -/
theorem instanceFields_withSteps (steps : List Step) (reference : Template.Reference)
    (package other : String) (bindings : List (String × Yaml.Value)) :
    instanceFields (lib.withSteps recipe steps) reference above package other bindings =
      (fun made => (made.1, if other = recipe then { made.2 with steps } else made.2)) <$>
        instanceFields lib reference above package other bindings := by
  rw [instanceFields, instanceFields, get?_withSteps, rounds_withSteps]
  cases hr : lib.recipes.get? other with
  | none => rfl
  | some r =>
    have hschema : (if other = recipe then { r with steps } else r).schema = r.schema := by
      split
      · rfl
      · rfl
    simp only [Option.map_some, hschema]
    by_cases habove : above.contains other
    · simp only [habove, if_true]
      rfl
    · simp only [habove, if_false, Bool.false_eq_true, map_bind, map_pure]

/-- Inside a recipe nothing depends on what its steps are in the library: it is not expanded
again. -/
theorem expand_withSteps (h : recipe ∈ above) (new : List Step) :
    (lib.withSteps recipe new).expand above = lib.expand above := by
  induction above using lib.induction_above with
  | h above ih =>
    funext steps params
    rw [expands_expand, expands_expand]
    congr 1
    refine List.map_congr_left fun s _ => ?_
    rw [Step.entry, Step.entry]
    cases s.shape with
    | malformed name => rfl
    | task name commands => rfl
    | package name other bindings =>
      simp only [instanceFields_withSteps]
      cases hfields : instanceFields lib params.get? above name other bindings with
      | error e => rfl
      | ok made =>
        obtain ⟨fields, r⟩ := made
        obtain ⟨hr, habove⟩ := instanceFields_eq_ok hfields
        have hne : other ≠ recipe := fun he => habove (he ▸ h)
        have hunused := mem_unused.2 ⟨Named.mem_names_of_get? hr, habove⟩
        simp only [Functor.map, Except.map, hne, if_false,
          ih other hunused (List.mem_append_left _ h)]

/-- A step adds the package of its recipe, whatever the steps of the recipe are. -/
theorem entry_withSteps {params : Field.Params} {s : Step} {name : String}
    {bindings : List (String × Yaml.Value)} {fields : Field.Params} {r : Recipe}
    (hshape : s.shape = .package name recipe bindings)
    (hfields : instanceFields lib params.get? above name recipe bindings = .ok (fields, r))
    (new : List Step) :
    s.entry (lib.withSteps recipe new) (lib.withSteps recipe new).expand above params =
      .inl (name, .package fields (lib.expand (above ++ [recipe]) new)) := by
  rw [Step.entry, hshape]
  simp only [instanceFields_withSteps, hfields, Functor.map, Except.map, if_true,
    expand_withSteps (List.mem_append_right above (List.mem_singleton_self recipe))]

/-- The steps of an instance of a recipe are independent of each other. -/
theorem independent_instance (lib : Library) (k : Compiler Field.Params) (above : List String)
    (fields : Field.Params) (p : Package) (package : String) :
    Independent
      (fun steps => ((Build.Entry.package fields (lib.expand above steps)).tasks k p package).2)
      (k.stepName fields) :=
  (lib.independent_compile k above fields).below fun _ _ =>
    Build.Entry.tasks_package_eq_ok_iff k

end Library

/-! ### Configurations -/

namespace Config

/-- The name of a step of a configuration in the outermost package. -/
def stepName (c : Config) (k : Compiler Field.Params) (s : Step) : Except CompileError String := do
  let params ← c.rootParams
  k.stepName params s

theorem independent_compileBy (c : Config) (k : Compiler Field.Params) :
    Independent (fun steps => { c with provision := steps }.compileBy k) (c.stepName k) := by
  cases hparams : c.rootParams with
  | error e =>
    have hcompile : ∀ steps, { c with provision := steps }.compileBy k = .error e := by
      intro steps
      have hsteps : { c with provision := steps }.rootParams = .error e := hparams
      rw [compileBy, hsteps]
      rfl
    refine .of_append fun xs ys tasks => ?_
    simp [hcompile]
  | ok params =>
    have hcompile : ∀ steps, { c with provision := steps }.compileBy k =
        (k.compile params (Library.expand ⟨c.recipes, k.rounds⟩ [] steps)).2 := by
      intro steps
      have hsteps : { c with provision := steps }.rootParams = .ok params := hparams
      rw [compileBy, hsteps, build_eq]
      rfl
    have hname : c.stepName k = k.stepName params := by
      funext s
      rw [stepName, hparams]
      rfl
    simp only [hcompile, hname]
    exact Library.independent_compile _ k [] params

/-- The steps of a configuration are independent of each other, and so are those of every package
that is made of a recipe, inside whatever recipes, with whatever fields.  It is the package that a
step adds for the recipe if the recipe has these steps. -/
theorem steps_independent (k : Compiler Field.Params) :
    (∀ c : Config,
      Independent (fun steps => { c with provision := steps }.compileBy k) (c.stepName k)) ∧
    (∀ (lib : Library) (above : List String) (fields : Field.Params) (p : Package)
      (package : String),
      Independent
        (fun steps => ((Build.Entry.package fields (lib.expand above steps)).tasks k p package).2)
        (k.stepName fields)) ∧
    ∀ (lib : Library) (above : List String) (params : Field.Params) (s : Step)
      (name recipe : String) (bindings : List (String × Yaml.Value)) (fields : Field.Params)
      (r : Recipe), s.shape = .package name recipe bindings →
      instanceFields lib params.get? above name recipe bindings = .ok (fields, r) →
      ∀ steps, s.entry (lib.withSteps recipe steps) (lib.withSteps recipe steps).expand above
        params = .inl (name, .package fields (lib.expand (above ++ [recipe]) steps)) :=
  ⟨fun c => c.independent_compileBy k,
    fun lib above fields p package => lib.independent_instance k above fields p package,
    fun _ _ _ _ _ _ _ _ _ hshape hfields steps => Library.entry_withSteps hshape hfields steps⟩

/-- A step that says hello is put between the two steps of a configuration, then the recipe of the
first step is taken with other steps. -/
theorem rack_steps_independent :
    let first : Step := { package? := some "r", recipe? := some "rack" }
    let between : Step := { task? := some "t", commands? := some [.shell "echo t"] }
    let last : Step := { package? := some "s", recipe? := some "base" }
    (∃ before is after, { rack with provision := [first] }.compileWith 8 = .ok before ∧
      { rack with provision := [last] }.compileWith 8 = .ok after ∧
      rack.compileWith 8 = .ok (before ++ after) ∧
      { rack with provision := [first, between, last] }.compileWith 8 =
        .ok (before ++ is ++ after)) ∧
    ∃ fields, ∀ steps, first.entry (Library.withSteps ⟨rack.recipes, 8⟩ "rack" steps)
      (Library.withSteps ⟨rack.recipes, 8⟩ "rack" steps).expand [] (.inferred .empty) =
        .inl ("r", .package fields (Library.expand ⟨rack.recipes, 8⟩ ["rack"] steps)) := by
  intro first between last
  constructor
  · obtain ⟨tasks, hold⟩ : ∃ tasks, rack.compileWith 8 = .ok tasks :=
      ⟨[⟨"r.a.c.hello", [⟨"echo hello", "echo hello"⟩]⟩,
        ⟨"r.b.hello", [⟨"echo hello", "echo hello"⟩]⟩,
        ⟨"s.hello", [⟨"echo hello", "echo hello"⟩]⟩], by decide +kernel⟩
    obtain ⟨tasks', hnew⟩ : ∃ tasks',
        { rack with provision := [first, between, last] }.compileWith 8 = .ok tasks' :=
      ⟨[⟨"r.a.c.hello", [⟨"echo hello", "echo hello"⟩]⟩,
        ⟨"r.b.hello", [⟨"echo hello", "echo hello"⟩]⟩, ⟨"t", [⟨"echo t", "echo t"⟩]⟩,
        ⟨"s.hello", [⟨"echo hello", "echo hello"⟩]⟩], by decide +kernel⟩
    obtain ⟨before, was, is, after, hbefore, hwas, -, hafter, rfl, rfl⟩ :=
      ((steps_independent (.forParams 8)).1 rack).edit [first] [] [between] [last] _ _ hold hnew
    have hnone : { rack with provision := [] }.compileWith 8 = .ok [] := by decide +kernel
    obtain rfl := Except.ok.inj (hnone.symm.trans hwas)
    rw [List.append_nil] at hold
    exact ⟨before, is, after, hbefore, hafter, hold, hnew⟩
  · cases hfields : instanceFields ⟨rack.recipes, 8⟩ (Field.Params.inferred .empty).get? [] "r"
      "rack" [] with
    | error e =>
      have hok : (instanceFields ⟨rack.recipes, 8⟩ (Field.Params.inferred .empty).get? [] "r"
        "rack" []).isOk = true := by decide +kernel
      rw [hfields] at hok
      cases hok
    | ok made =>
      obtain ⟨fields, r⟩ := made
      exact ⟨fields, fun steps => (steps_independent (.forParams 8)).2.2 ⟨rack.recipes, 8⟩ []
        (.inferred .empty) first "r" "rack" [] fields r rfl hfields steps⟩

end Config

end Provisioning

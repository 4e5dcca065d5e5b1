import Provisioning.Config.Issue
import Provisioning.Proofs.Config.Ordering

/-!
# Configurations without faults

In a configuration without faults every step is of one of the two kinds, names a declared recipe if
any, and every recipe has a place in the order of recipes, after those that its steps name
(`Config.proper_of_issues`).
-/

namespace Provisioning

variable {recipes : Named Recipe}

/-! ### Steps -/

/-- A step of one of the two kinds; if it names a recipe, that one is declared. -/
structure Step.Proper (recipes : Named Recipe) (s : Step) : Prop where
  /-- It is a task or a package. -/
  kind : s.isTask ∨ s.isPackage
  /-- Its recipe is declared. -/
  known : ∀ recipe, s.recipe? = some recipe → recipe ∈ recipes.names

theorem Step.proper_of_issues {owner : StepOwner} {index : Nat} {s : Step}
    (h : s.issues recipes owner index = []) : s.Proper recipes := by
  rw [issues, List.append_eq_nil_iff] at h
  constructor
  · by_contra hkind
    simp [not_or.1 hkind] at h
  · intro recipe hrecipe
    rw [← Named.contains_iff_mem_names]
    by_contra hknown
    simp [hrecipe, hknown] at h

theorem proper_of_stepIssues {owner : StepOwner} {index : Nat} {steps : List Step}
    (h : stepIssues recipes owner index steps = []) : ∀ s ∈ steps, s.Proper recipes := by
  induction steps generalizing index with
  | nil => simp
  | cons s steps ih =>
    rw [stepIssues, List.append_eq_nil_iff] at h
    exact List.forall_mem_cons.2 ⟨Step.proper_of_issues h.1, ih h.2⟩

/-- What the expansion of a configuration needs. -/
structure Config.Proper (c : Config) : Prop where
  /-- The outermost steps are proper. -/
  provision : ∀ s ∈ c.provision, s.Proper c.recipes
  /-- The steps of recipes are proper. -/
  steps : ∀ name r, c.recipes.get? name = some r → ∀ s ∈ r.steps, s.Proper c.recipes
  /-- Recipes are numbered such that their steps name recipes of lower numbers. -/
  ranked : ∃ rank : String → Nat, ∀ name r, c.recipes.get? name = some r →
    ∀ s ∈ r.steps, ∀ used, s.recipe? = some used → rank used < rank name

/-- A configuration without faults is proper. -/
theorem Config.proper_of_issues {c : Config} (h : c.issues = []) : c.Proper := by
  simp only [issues, List.append_eq_nil_iff] at h
  obtain ⟨⟨⟨-, hprovision⟩, hrecipes⟩, horder⟩ := h
  have hsteps : ∀ name r, c.recipes.get? name = some r → ∀ s ∈ r.steps, s.Proper c.recipes := by
    intro name r hr
    have hnone := List.flatMap_eq_nil_iff.1 hrecipes _ (Named.mem_entries_of_get? hr)
    exact proper_of_stepIssues (List.append_eq_nil_iff.1 hnone).1
  cases ho : recipeOrder c.recipes with
  | error names => simp [ho] at horder
  | ok order =>
    refine ⟨proper_of_stepIssues hprovision, hsteps, order.idxOf, ?_⟩
    intro name r hr s hs used hused
    have hdeclared := (hsteps name r hr s hs).known used hused
    exact RecipeOrder.idxOf_lt_of_orderBy (.refl _) ho ⟨hdeclared, r, hr, s, hs, hused⟩

end Provisioning

import Provisioning.Config.RecipeOrder
import Provisioning.Path

/-!
# What is wrong with a configuration

`Config.issues` lists every structural fault of a configuration that could be read.
-/

namespace Provisioning

/-- Whose steps they are. -/
inductive StepOwner where
  /-- The outermost steps. -/
  | provision
  /-- The steps of a recipe. -/
  | recipe (name : String)
deriving DecidableEq

/-- How the owner of steps is called. -/
def StepOwner.text : StepOwner → String
  | provision => "provision"
  | recipe name => "recipe '" ++ name ++ "'"

/-- One structural fault. -/
inductive Issue where
  | version (got : String)
  | noName
  | noAddress (machine : String)
  | noRounds
  | noQueue
  | relativeCacheRoot (got : String)
  | badVariable (key : String)
  | malformedStep (owner : StepOwner) (index : Nat) (name : String)
  | unknownRecipe (owner : StepOwner) (index : Nat) (recipe : String)
  | defaultOfRequired (recipe field : String)
  | recipeCycle (recipes : List String)
deriving DecidableEq

/-- What is said of a recipe cycle. -/
def recipeCycleMessage (recipes : List String) : String :=
  "recipe cycle detected involving: " ++ Text.join ", " recipes

/-- What is said of a fault. -/
def Issue.message : Issue → String
  | version got => "version must be \"1.0\", got \"" ++ got ++ "\""
  | noName => "name must not be empty"
  | noAddress machine => "machine '" ++ machine ++ "' has no addr"
  | noRounds => "settings.render_rounds must be at least 1"
  | noQueue => "settings.event_queue must be at least 1"
  | relativeCacheRoot got => "settings.cache_root must be an absolute path, got \"" ++ got ++ "\""
  | badVariable key => "settings.env key '" ++ key ++ "' is not a valid variable name"
  | malformedStep owner index name =>
    owner.text ++ " step " ++ toString index ++ " ('" ++ name
      ++ "') needs either task + commands or package + recipe"
  | unknownRecipe owner index recipe =>
    owner.text ++ " step " ++ toString index ++ " references unknown recipe '" ++ recipe ++ "'"
  | defaultOfRequired recipe field =>
    "recipe '" ++ recipe ++ "' field '" ++ field ++ "' is required but has a default"
  | recipeCycle recipes => recipeCycleMessage recipes

/-- Whether a text can name a variable of the shell. -/
def isVariableName (key : String) : Bool :=
  match key.toList with
  | [] => false
  | c :: cs => (c.isAlpha || c == '_') && cs.all fun c => c.isAlphanum || c == '_'

/-- Whether a step is a task with commands and nothing else. -/
def Step.isTask (s : Step) : Bool :=
  s.task?.isSome && s.commands?.isSome && s.package?.isNone && s.recipe?.isNone
    && s.bindings.isEmpty

/-- Whether a step is a package with a recipe. -/
def Step.isPackage (s : Step) : Bool :=
  s.package?.isSome && s.recipe?.isSome && s.task?.isNone && s.commands?.isNone

/-- The faults of one step. -/
def Step.issues (recipes : Named Recipe) (owner : StepOwner) (index : Nat) (s : Step) :
    List Issue :=
  (if s.isTask || s.isPackage then [] else [.malformedStep owner index s.name])
    ++ match s.recipe? with
      | none => []
      | some r => if recipes.contains r then [] else [.unknownRecipe owner index r]

/-- The faults of steps, the first of which has an index. -/
def stepIssues (recipes : Named Recipe) (owner : StepOwner) : Nat → List Step → List Issue
  | _, [] => []
  | index, s :: ss => s.issues recipes owner index ++ stepIssues recipes owner (index + 1) ss

/-- The faults of a recipe. -/
def Recipe.issues (recipes : Named Recipe) (name : String) (r : Recipe) : List Issue :=
  stepIssues recipes (.recipe name) 0 r.steps
    ++ r.fields.entries.filterMap fun (field, decl) =>
      if decl.required && decl.default?.isSome then some (.defaultOfRequired name field) else none

/-- The faults of settings. -/
def Settings.issues (s : Settings) : List Issue :=
  (if s.renderRounds < 1 then [.noRounds] else [])
    ++ (if s.eventQueue < 1 then [.noQueue] else [])
    ++ (if Path.isAbsolute s.cacheRoot then [] else [.relativeCacheRoot s.cacheRoot])
    ++ (s.env.names.filter fun key => !isVariableName key).map .badVariable

/-- All faults of a configuration, in the order of its parts. -/
def Config.issues (c : Config) : List Issue :=
  (if c.version = "1.0" then [] else [.version c.version])
    ++ (if c.name = "" then [.noName] else [])
    ++ c.machines.entries.filterMap (fun (id, m) =>
      if m.addr = "" then some (.noAddress id) else none)
    ++ c.settings.issues
    ++ stepIssues c.recipes .provision 0 c.provision
    ++ c.recipes.entries.flatMap (fun (name, r) => r.issues c.recipes name)
    ++ match recipeOrder c.recipes with
      | .ok _ => []
      | .error names => [.recipeCycle names]

/-- What is said of a configuration with faults. -/
def issuesMessage (issues : List Issue) : String :=
  toString issues.length ++ " validation error(s):\n  "
    ++ Text.join "\n  " (issues.map Issue.message)

end Provisioning

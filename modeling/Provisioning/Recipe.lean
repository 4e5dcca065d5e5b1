import Provisioning.Config.Basic
import Provisioning.Package

/-!
# Recipes as packages

A recipe makes a package: its declared fields, set by the values that a step gives, and a program
that adds its steps.  Texts among the values are expanded against the package of the step before
they are taken.  A recipe is never expanded inside itself, so expansion ends.
-/

namespace Provisioning

open Yaml (Value)

/-! ### Values of fields -/

/-- The value of a field of a kind that a value without type gives, or what is wrong with it.  A
text gives a number or a truth value if it spells one, so an expanded template can set any field. -/
def fieldValue (field : String) (kind : Field.Kind) (v : Value) :
    Except Field.Violation Field.Value :=
  let mismatch := Field.Violation.wrongKind field kind.word v.kindName
  match kind, v with
  | .string, .string s => .ok (.string s)
  | .string, .number n => .ok (.string n.text)
  | .string, .bool b => .ok (.string (Value.bool b).text)
  | .string, .null => .ok (.string "")
  | .int, .number n =>
    match n.int64? with
    | some i => .ok (.int i)
    | none => .error mismatch
  | .int, .string s =>
    match Decimal.int64? (Text.trim s) with
    | some i => .ok (.int i)
    | none => .error mismatch
  | .bool, .bool b => .ok (.bool b)
  | .bool, .string s =>
    if Text.trim s = "true" then .ok (.bool true)
    else if Text.trim s = "false" then .ok (.bool false)
    else .error mismatch
  | .bytes, .string s => .ok (.bytes (textBytes s))
  | _, _ => .error mismatch

/-- The value of a field of which only a value without type is known. -/
def inferredValue (field : String) (v : Value) : Except Field.Violation Field.Value :=
  match v with
  | .bool b => .ok (.bool b)
  | .number n =>
    match n.int64? with
    | some i => .ok (.int i)
    | none => .ok (.string n.text)
  | .string s => .ok (.string s)
  | .null => .ok (.string "")
  | v => .error (.wrongKind field "string, int or bool" v.kindName)

/-- The declaration of a field as the schema has it. -/
def FieldDecl.spec (name : String) (d : FieldDecl) : Except Field.Violation Field.Spec := do
  let default? ← match d.default? with
    | none => pure none
    | some v => some <$> fieldValue name d.kind v
  return { name, kind := d.kind, required := d.required, default?, min? := d.min?, max? := d.max?,
           size? := d.size? }

/-- The schema of a recipe. -/
def Recipe.schema (r : Recipe) : Except Field.Violation Field.Schema := do
  let specs ← r.fields.entries.mapM fun (name, d) => d.spec name
  return Field.Schema.ofSpecs specs

/-! ### Steps -/

/-- Expands a value if it is a text. -/
def renderValue (render : String → Except CompileError String) :
    Value → Except CompileError Value
  | .string s => do return .string (← render s)
  | v => .ok v

/-- Sets the fields of a recipe to the values that a step gives, in order. -/
def bindFields (render : String → Except CompileError String) (package : String) :
    Field.Params → List (String × Value) → Except CompileError Field.Params
  | params, [] => .ok params
  | params, (field, v) :: rest =>
    match params.schema.get? field with
    | none => .error (.validation package (.unknownField field))
    | some spec => do
      let v ← renderValue render v
      match (fieldValue field spec.kind v).bind (params.set field) with
      | .error e => .error (.validation package e)
      | .ok params => bindFields render package params rest

/-- A step with the shape that one of the two kinds of step has. -/
inductive StepShape where
  | task (name : String) (commands : List Command)
  | package (name recipe : String) (bindings : List (String × Value))
  | malformed (name : String)

/-- The shape of a step. -/
def Step.shape (s : Step) : StepShape :=
  match s.task?, s.commands?, s.package?, s.recipe? with
  | some name, some commands, none, none =>
    if s.bindings.isEmpty then .task name commands else .malformed s.name
  | none, none, some name, some recipe => .package name recipe s.bindings.entries
  | _, _, _, _ => .malformed s.name

/-! ### Expansion -/

/-- What is fixed while a configuration is compiled. -/
structure Library where
  /-- The recipes. -/
  recipes : Named Recipe
  /-- How often a template may be expanded. -/
  rounds : Nat

/-- A program that fills a package with the fields of a recipe. -/
abbrev RecipeBuild := Build Field.Params Empty

/-- Adds things one after another, up to the first that cannot be added. -/
def addAll : List (String × Build.Entry Field.Params Empty ⊕ CompileError) → RecipeBuild
  | [] => .done (.ok ())
  | .inr e :: _ => .done (.error e)
  | .inl (name, entry) :: rest =>
    .add name entry fun result _ =>
      match result with
      | .ok () => addAll rest
      | .error e => .done (.error e)

/-- The fields of an instance of a recipe: its schema with the values that a step gives. -/
def instanceFields (lib : Library) (reference : Template.Reference) (above : List String)
    (package recipe : String) (bindings : List (String × Value)) :
    Except CompileError (Field.Params × Recipe) := do
  let some r := lib.recipes.get? recipe | throw (.unsupported recipe (.unknownRecipe recipe))
  if above.contains recipe then throw (.unsupported recipe (.recipeCycle above recipe))
  let schema ← r.schema.mapError (.validation recipe)
  let render := (Package.empty reference lib.rounds).render
  let params ← bindFields render package (Field.Params.new schema) bindings
  return (params, r)

/-- What steps add to a package, inside the recipes of `above`, outermost first.  Only the recipes
of `unused` may still be expanded. -/
def expandSteps (lib : Library) (unused above : List String) (steps : List Step)
    (params : Field.Params) : RecipeBuild :=
  addAll <| steps.map fun s =>
    match s.shape with
    | .malformed name => .inr (.unsupported name .malformedStep)
    | .task name commands => .inl (name, .task (.ok commands))
    | .package name recipe bindings =>
      match instanceFields lib params.get? above name recipe bindings with
      | .error e => .inr e
      | .ok (fields, r) =>
        if _h : recipe ∈ unused then
          .inl (name, .package fields fun params =>
            expandSteps lib (unused.erase recipe) (above ++ [recipe]) r.steps params)
        else .inr (.unsupported recipe (.recipeCycle above recipe))
termination_by unused.length
decreasing_by
  rw [List.length_erase_of_mem _h]
  have := List.length_pos_of_mem _h
  omega

/-- The parameters of a configuration, their kinds those of their values. -/
def Config.rootParams (c : Config) : Except CompileError Field.Params := do
  let values ← c.params.entries.mapM fun (name, v) => do
    return (name, ← (inferredValue name v).mapError (.validation "params"))
  return Field.Params.inferred (Named.ofList values)

/-- The program that fills the outermost package of a configuration. -/
def Config.build (c : Config) (rounds : Nat) : Field.Params → RecipeBuild :=
  expandSteps ⟨c.recipes, rounds⟩ c.recipes.names [] c.provision

/-- The tasks of a configuration, templates expanded at most `rounds` times. -/
def Config.compileWith (c : Config) (rounds : Nat) : Except CompileError (List Task) := do
  let params ← c.rootParams
  ((Compiler.forParams rounds).compile params (c.build rounds)).2

/-- The tasks of a configuration. -/
def Config.compile (c : Config) : Except CompileError (List Task) :=
  c.compileWith c.settings.renderRounds

end Provisioning

import Provisioning.Command
import Provisioning.Digest.Chain
import Provisioning.Field.Schema

/-!
# Tasks and why there may be none

A task is a named list of actions, ready to run.  `Task.ofCommands` makes one from the commands
that an author wrote.  `CompileError` holds every reason why a description of tasks is refused.
-/

namespace Provisioning

/-- Named actions that run in order. -/
structure Task where
  /-- The name, which is also that of the task's cache directory. -/
  name : String
  /-- What runs. -/
  actions : List Action
deriving DecidableEq, Repr, Inhabited

/-- The scripts of a task, in order. -/
def Task.scripts (t : Task) : List String := t.actions.map Action.script

/-- The cumulative checksums of a task. -/
def Task.checksums (t : Task) : List String := Provisioning.checksums t.scripts

/-! ### Refusals -/

/-- What is wrong with a name. -/
inductive NameFault where
  | empty
  | blank
  | slash
  | outerDot
deriving DecidableEq

/-- What is said of a fault in a name. -/
def NameFault.message : NameFault → String
  | empty => "name is empty"
  | blank => "name contains whitespace"
  | slash => "name contains '/'"
  | outerDot => "name must not start or end with '.'"

/-- Why something cannot be added. -/
inductive UnitFault where
  /-- There is no recipe of this name. -/
  | unknownRecipe (recipe : String)
  /-- The recipe is being expanded already, inside the recipes named, outermost first. -/
  | recipeCycle (above : List String) (recipe : String)
  /-- A step is neither a task nor a package. -/
  | malformedStep
  /-- A builder's own reason. -/
  | other (detail : String)
deriving DecidableEq

/-- What is said of a thing that cannot be added. -/
def UnitFault.message : UnitFault → String
  | unknownRecipe recipe => "unknown recipe '" ++ recipe ++ "'"
  | recipeCycle above recipe => "recipe cycle: " ++ Text.join " -> " above ++ " -> " ++ recipe
  | malformedStep =>
    "a step needs either `task` + `commands` or `package` + `recipe` "
      ++ "(+ `with`)"
  | other detail => detail

/-- Why tasks cannot be made. -/
inductive CompileError where
  | invalidName (name : String) (fault : NameFault)
  | duplicateName (name : String)
  | unsupported (name : String) (fault : UnitFault)
  | validation (name : String) (cause : Field.Violation)
  | render (context : String) (cause : Template.Error)
  | command (task : String) (index : Nat) (cause : Command.Error)
deriving DecidableEq

/-- What is said of tasks that cannot be made. -/
def CompileError.message : CompileError → String
  | invalidName name fault => "invalid name " ++ Text.quoted name ++ ": " ++ fault.message
  | duplicateName name => "duplicate name '" ++ name ++ "'"
  | unsupported name fault => "unsupported unit '" ++ name ++ "': " ++ fault.message
  | validation name cause => "validation of '" ++ name ++ "' failed: " ++ cause.message
  | render context cause => "rendering '" ++ context ++ "' failed: " ++ cause.message
  | command task index cause =>
    "command " ++ toString index ++ " of task '" ++ task ++ "' is invalid: " ++ cause.message

/-! ### From commands to tasks -/

/-- The action of the command at an index of a task, all templates expanded. -/
def Action.ofCommand (render : String → Except Template.Error String) (task : String)
    (index : Nat) (command : Command) : Except CompileError Action :=
  match command.render render with
  | (_, .error e) => .error (.render (task ++ "[" ++ toString index ++ "]") e)
  | (command, .ok ()) =>
    match command.freeze with
    | .error e => .error (.command task index e)
    | .ok action => .ok action

/-- The actions of commands, the first of which stands at `index`. -/
def Action.ofCommands (render : String → Except Template.Error String) (task : String) :
    Nat → List Command → Except CompileError (List Action)
  | _, [] => .ok []
  | index, command :: commands => do
    let action ← Action.ofCommand render task index command
    let actions ← Action.ofCommands render task (index + 1) commands
    return action :: actions

/-- The task of a name and commands. -/
def Task.ofCommands (render : String → Except Template.Error String) (name : String)
    (commands : List Command) : Except CompileError Task := do
  return ⟨name, ← Action.ofCommands render name 0 commands⟩

end Provisioning

import Provisioning.Command
import Provisioning.Field.Schema
import Provisioning.Yaml.Value

/-!
# Configurations

A configuration names machines, settings, recipes and the steps to be provisioned.  A recipe is a
package to be used many times: it declares fields and steps.
-/

namespace Provisioning

/-- A host to be provisioned. -/
structure Machine where
  /-- Its own name. -/
  hostname : String
  /-- Its network address. -/
  addr : String
  /-- Who logs in. -/
  user : String := "root"
  /-- The port of the login service. -/
  port : UInt16 := 22
  /-- The path of a private key. -/
  sshKey? : Option String := none
  /-- The path of the control socket by which connections are shared. -/
  controlPath? : Option String := none
deriving DecidableEq

/-- When commands run with raised privileges. -/
inductive Elevation where
  /-- Unless root logs in. -/
  | auto
  | always
  | never
deriving DecidableEq, Repr, Inhabited

/-- The word for a choice of elevation. -/
def Elevation.word : Elevation → String
  | auto => "auto"
  | always => "always"
  | never => "never"

/-- Whether the commands of a user run with raised privileges. -/
def Elevation.applies (e : Elevation) (user : String) : Bool :=
  match e with
  | auto => user != "root"
  | always => true
  | never => false

/-- How provisioning is done. -/
structure Settings where
  /-- The directory of the cache on every host. -/
  cacheRoot : String := "/var/lib/strata"
  /-- The group that owns the cache. -/
  cacheGroup : String := "strata"
  /-- Variables exported before every command. -/
  env : Named String := {}
  /-- When commands run with raised privileges. -/
  elevation : Elevation := .auto
  /-- Whether the group and the directory of the cache are made on first contact. -/
  manageGroup : Bool := true
  /-- How often a template may be expanded. -/
  renderRounds : Nat := 8
  /-- Whether hosts are provisioned at the same time. -/
  parallelHosts : Bool := true
  /-- How many events wait for each subscriber. -/
  eventQueue : Nat := 1024

/-- The declaration of a field of a recipe. -/
structure FieldDecl where
  /-- What the field may hold. -/
  kind : Field.Kind
  /-- What the field is for. -/
  description? : Option String := none
  /-- What the field holds if it is not set. -/
  default? : Option Yaml.Value := none
  /-- Whether the field must be set. -/
  required : Bool := false
  /-- The least measure. -/
  min? : Option Int64 := none
  /-- The greatest measure. -/
  max? : Option Int64 := none
  /-- The only length allowed. -/
  size? : Option Nat := none

/-- One step: a task with commands, or a package with a recipe and values for its fields. -/
structure Step where
  /-- The name of the task. -/
  task? : Option String := none
  /-- What the task runs. -/
  commands? : Option (List Command) := none
  /-- The name of the package. -/
  package? : Option String := none
  /-- The recipe that fills the package. -/
  recipe? : Option String := none
  /-- Values for the fields of the recipe. -/
  bindings : Named Yaml.Value := {}

/-- The name by which people know a step. -/
def Step.name (s : Step) : String :=
  match s.task?, s.package? with
  | some t, _ => t
  | none, some p => p
  | none, none => "<unnamed>"

/-- A package to be used many times. -/
structure Recipe where
  /-- What the recipe is for. -/
  description? : Option String := none
  /-- The declared fields. -/
  fields : Named FieldDecl := {}
  /-- The steps, in order. -/
  steps : List Step := []

/-- All that is to be known of what is provisioned, and where. -/
structure Config where
  /-- The version of the format. -/
  version : String
  /-- The name of the whole. -/
  name : String
  /-- What it is for. -/
  description? : Option String := none
  /-- The values that the outermost templates refer to. -/
  params : Named Yaml.Value := {}
  /-- How provisioning is done. -/
  settings : Settings := {}
  /-- The hosts, in order. -/
  machines : Named Machine := {}
  /-- The recipes. -/
  recipes : Named Recipe := {}
  /-- The outermost steps. -/
  provision : List Step := []

end Provisioning

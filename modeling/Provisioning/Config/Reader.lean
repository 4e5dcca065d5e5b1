import Provisioning.Config.Basic

/-!
# Reading configurations

A `Reader α` reads a node as an `α`.  Texts take any scalar as it is written, numbers and truth
values only plain ones of their type; where nothing is written, a collection is empty.  In a
mapping with fixed keys a repeated key is an error, in one with free names the last value counts.
Values that are not asked for are not looked at.

Commands are read otherwise: their scalars have their types before their shapes are looked at.
-/

namespace Provisioning

open Yaml (Node Resolve Error)

/-- How a node is read, if so many collections may lie inside one another there. -/
abbrev Reader (α : Type) := Nat → Node → Resolve α

namespace Reader

/-- A reader of single nodes, which looks at nothing but the node that is meant. -/
def single {α : Type} (read : Node → Except Error α) : Reader α := fun _ node => do
  return ← read (← Resolve.target node)

/-- Any scalar, as it is written. -/
def string : Reader String := single fun
  | .scalar _ _ text => .ok text
  | _ => .error (.wrongType "a string")

/-- Whether a scalar may be read as of a type: a plain one may, and a literal one of its tag. -/
def mayBe (tag : Option Yaml.Tag) (style : Yaml.Style) (type : String) : Bool :=
  style = .plain || (style = .literal && tag = some (.standard type))

/-- A plain truth value. -/
def bool : Reader Bool := single fun
  | .scalar tag style text =>
    match (if mayBe tag style "bool" then Yaml.bool? text else none) with
    | some b => .ok b
    | none => .error (.wrongType "a boolean")
  | _ => .error (.wrongType "a boolean")

/-- The whole number that a scalar stands for. -/
def intOf (tag : Option Yaml.Tag) (style : Yaml.Style) (text : String) : Except Error Int :=
  match (if mayBe tag style "int" then Yaml.int? text else none) with
  | some n => .ok n
  | none => .error (.wrongType "an integer")

/-- A plain whole number of 64 bits with a sign. -/
def int64 : Reader Int64 := single fun
  | .scalar tag style text => do
    match Decimal.toInt64? (← intOf tag style text) with
    | some n => return n
    | none => throw (.wrongType "i64")
  | _ => .error (.wrongType "an integer")

/-- A plain whole number without a sign, below a bound. -/
def natBelow (bound : Nat) : Reader Nat := single fun
  | .scalar tag style text => do
    if text.toList.head? == some '-' then throw (.wrongType "an unsigned integer")
    let n := (← intOf tag style text).toNat
    if n < bound then return n else throw (.wrongType "a smaller integer")
  | _ => .error (.wrongType "an unsigned integer")

/-- Something that may be left out or null. -/
def option {α : Type} (read : Reader α) : Reader (Option α) := fun room node => do
  let node ← Resolve.target node
  match node with
  | .missing => return none
  | .scalar tag style text =>
    if style = .plain && tag.isNone then
      if text.isEmpty || Yaml.isNull text then return none
      else return some (← read room node)
    else if style = .plain && tag = some (.standard "null") then
      if Yaml.isNull text then return none else throw (.wrongType "null")
    else return some (← read room node)
  | _ => return some (← read room node)

/-- Whether nothing is written. -/
def isNothing : Node → Bool
  | .missing => true
  | .scalar _ style text => style = .plain && text.isEmpty
  | _ => false

/-- A sequence. -/
def list {α : Type} (read : Reader α) : Reader (List α) := fun room node => do
  match ← Resolve.target node with
  | .seq _ items => Resolve.inside room fun room => items.mapM (read room)
  | node => if isNothing node then return [] else throw (.wrongType "a sequence")

/-- A mapping with free names. -/
def named {α : Type} (read : Reader α) : Reader (Named α) := fun room node => do
  match ← Resolve.target node with
  | .map _ entries =>
    Resolve.inside room fun room => do
      let es ← entries.mapM fun (k, v) => do return (← string room k, ← read room v)
      return Named.ofList es
  | node => if isNothing node then return {} else throw (.wrongType "a map")

/-- The values of the known keys of a mapping, and how many collections may lie inside one another
there. -/
structure Keys where
  values : List (String × Node)
  room : Nat

/-- The values of the known keys among entries.  An unknown key is passed over, or refused if the
mapping is closed. -/
def keysOf (known : List String) (closed : Bool) (room : Nat) (entries : List (Node × Node)) :
    Resolve Keys := do
  let values ← entries.foldlM (fun found (k, v) => do
    let key ← string room k
    if !known.contains key then
      if closed then throw (.unknownKey key) else return found
    if (found.lookup key).isSome then throw (.duplicateKey key)
    return found ++ [(key, v)]) []
  return { values, room }

/-- The values of the known keys of a mapping with fixed keys.  A sequence gives them in order. -/
def keys (known : List String) (closed : Bool) : Reader Keys := fun room node => do
  match ← Resolve.target node with
  | .map _ entries => Resolve.inside room fun room => keysOf known closed room entries
  | .seq _ items =>
    Resolve.inside room fun room => do
      if known.length < items.length then throw (.wrongType "fewer items")
      return { values := known.zip items, room }
  | node => if isNothing node then return { values := [], room } else throw (.wrongType "a map")

/-- The value of a key that must be there. -/
def required {α : Type} (found : Keys) (key : String) (read : Reader α) : Resolve α :=
  match found.values.lookup key with
  | some node => read found.room node
  | none => throw (.missingKey key)

/-- The value of a key, or another one if the key is not there. -/
def optional {α : Type} (found : Keys) (key : String) (read : Reader α) (default : α) :
    Resolve α :=
  match found.values.lookup key with
  | some node => read found.room node
  | none => return default

/-- A word of a fixed list, also written as the name of a tag before nothing. -/
def word {α : Type} (words : List (String × α)) : Reader α := single fun node => do
  let name ← match node with
    | .scalar tag style text =>
      match tag.bind Yaml.Tag.name? with
      | none => pure text
      | some name =>
        if style = .plain && (text.isEmpty || Yaml.isNull text) then pure name
        else throw (.wrongType "a unit variant")
    | _ => throw (.wrongType "a word")
  match words.lookup name with
  | some a => return a
  | none => throw (.unknownKey name)

/-! ### Commands -/

/-- A node with the types of its scalars.  Local tags are refused; repeated keys are not. -/
def typed (room : Nat) (node : Node) : Resolve Yaml.Value := do
  match ← Resolve.target node with
  | .scalar tag style text =>
    refuseLocal tag
    Yaml.Value.ofScalar tag style text
  | .seq tag items =>
    refuseLocal tag
    match room with
    | 0 => throw .tooDeep
    | n + 1 => return .seq (← items.mapM (typed n))
  | .map tag entries =>
    refuseLocal tag
    match room with
    | 0 => throw .tooDeep
    | n + 1 => return .map (← entries.mapM fun (k, v) => do return (← typed n k, ← typed n v))
  | .alias _ | .missing => return .null
where
  /-- Refuses a local tag with a name. -/
  refuseLocal (tag : Option Yaml.Tag) : Resolve Unit :=
    if (tag.bind Yaml.Tag.name?).isSome then throw (.wrongType "a value without a tag")
    else return ()

/-- The name that a key stands for: a text itself, a number its place in the list of names. -/
def keyName (names : List String) : Yaml.Value → Except Error (Option String)
  | .string s => .ok (if names.contains s then some s else none)
  | .number (.int n) => if 0 ≤ n then .ok names[n.toNat]? else .error (.wrongType "a key")
  | _ => .error (.wrongType "a key")

/-- The inputs of an operation under their names.  A sequence gives them in order. -/
def inputs (names : List String) : Yaml.Value → Except Error (List (String × Yaml.Value))
  | .map es =>
    es.foldlM (fun found (k, v) => do
      match ← keyName names k with
      | none => return found
      | some name =>
        if (found.lookup name).isSome then throw (.duplicateKey name)
        return found ++ [(name, v)]) []
  | .seq vs =>
    if vs.length ≤ names.length then .ok (names.zip vs) else .error (.wrongType "fewer items")
  | _ => .error (.wrongType "a map")

/-- A text. -/
def textOf : Yaml.Value → Except Error String
  | .string s => .ok s
  | _ => .error (.wrongType "a string")

/-- An input that must be there. -/
def input (found : List (String × Yaml.Value)) (name : String) : Except Error String :=
  match found.lookup name with
  | some v => textOf v
  | none => .error (.missingKey name)

/-- An input that may be left out or null. -/
def input? (found : List (String × Yaml.Value)) (name : String) : Except Error (Option String) :=
  match found.lookup name with
  | none => .ok none
  | some .null => .ok none
  | some v => do return some (← textOf v)

/-- The names of the operations. -/
def operations : List String :=
  ["write_file", "mkdir", "install_packages", "update_packages", "as_user"]

/-- An operation with its inputs. -/
def operation (name : String) (body : Yaml.Value) : Except Error Command :=
  match name with
  | "write_file" => do
    let found ← inputs ["path", "content", "mode", "owner"] body
    return .writeFile ⟨← input found "path", ← input found "content", ← input? found "mode",
      ← input? found "owner"⟩
  | "mkdir" => do
    let found ← inputs ["path", "mode", "owner"] body
    return .mkdir ⟨← input found "path", ← input? found "mode", ← input? found "owner"⟩
  | "install_packages" =>
    match body with
    | .seq items => do return .installPackages (← items.mapM textOf)
    | _ => .error (.wrongType "a sequence")
  | "update_packages" =>
    match body with
    | .null => .ok .updatePackages
    | _ => .error (.wrongType "unit")
  | "as_user" => do
    let found ← inputs ["user", "run"] body
    return .asUser (← input found "user") (← input found "run")
  | _ => .error (.unknownKey name)

/-- What a value stands for as a command: an operation by its name, or else a script. -/
def commandOf : Yaml.Value → Except Error Command
  | .string s => return if s = "update_packages" then .updatePackages else .shell s
  | .map [(k, body)] => do
    match ← keyName operations k with
    | some name => operation name body
    | none => throw (.wrongType "an operation")
  | _ => throw (.wrongType "a command")

/-- A command. -/
def command : Reader Command := fun room node => do
  return ← commandOf (← typed room node)

/-! ### Configurations -/

/-- A host. -/
def machine : Reader Machine := fun room node => do
  let f ← keys ["hostname", "addr", "user", "port", "ssh_key", "control_path"] false room node
  return {
    hostname := ← required f "hostname" string
    addr := ← required f "addr" string
    user := ← optional f "user" string "root"
    port := UInt16.ofNat (← optional f "port" (natBelow (Nat.pow 2 16)) 22)
    sshKey? := ← optional f "ssh_key" (option string) none
    controlPath? := ← optional f "control_path" (option string) none }

/-- A choice of elevation. -/
def elevation : Reader Elevation :=
  word ([Elevation.auto, .always, .never].map fun e => (e.word, e))

/-- Settings; what is not there is as by default. -/
def settings : Reader Settings := fun room node => do
  let f ← keys ["cache_root", "cache_group", "env", "elevation", "manage_group", "render_rounds",
    "parallel_hosts", "event_queue"] false room node
  let d : Settings := {}
  return {
    cacheRoot := ← optional f "cache_root" string d.cacheRoot
    cacheGroup := ← optional f "cache_group" string d.cacheGroup
    env := ← optional f "env" (named string) d.env
    elevation := ← optional f "elevation" elevation d.elevation
    manageGroup := ← optional f "manage_group" bool d.manageGroup
    renderRounds := ← optional f "render_rounds" (natBelow (Nat.pow 2 64)) d.renderRounds
    parallelHosts := ← optional f "parallel_hosts" bool d.parallelHosts
    eventQueue := ← optional f "event_queue" (natBelow (Nat.pow 2 64)) d.eventQueue }

/-- A kind of field. -/
def fieldKind : Reader Field.Kind :=
  word ([Field.Kind.string, .int, .bool, .bytes].map fun k => (k.word, k))

/-- The declaration of a field. -/
def fieldDecl : Reader FieldDecl := fun room node => do
  let f ← keys ["type", "description", "default", "required", "min", "max", "size"] false room node
  return {
    kind := ← required f "type" fieldKind
    description? := ← optional f "description" (option string) none
    default? := ← optional f "default" (option Yaml.Value.ofNode) none
    required := ← optional f "required" bool false
    min? := ← optional f "min" (option int64) none
    max? := ← optional f "max" (option int64) none
    size? := ← optional f "size" (option (natBelow (Nat.pow 2 64))) none }

/-- A step.  Other keys are refused. -/
def step : Reader Step := fun room node => do
  let f ← keys ["task", "commands", "package", "recipe", "with"] true room node
  return {
    task? := ← optional f "task" (option string) none
    commands? := ← optional f "commands" (option (list command)) none
    package? := ← optional f "package" (option string) none
    recipe? := ← optional f "recipe" (option string) none
    bindings := ← optional f "with" (named Yaml.Value.ofNode) {} }

/-- A recipe. -/
def recipe : Reader Recipe := fun room node => do
  let f ← keys ["description", "fields", "steps"] false room node
  return {
    description? := ← optional f "description" (option string) none
    fields := ← optional f "fields" (named fieldDecl) {}
    steps := ← optional f "steps" (list step) [] }

/-- A configuration. -/
def config : Reader Config := fun room node => do
  let f ← keys ["version", "name", "description", "params", "settings", "machines", "recipes",
    "provision"] false room node
  return {
    version := ← required f "version" string
    name := ← required f "name" string
    description? := ← optional f "description" (option string) none
    params := ← optional f "params" (named Yaml.Value.ofNode) {}
    settings := ← optional f "settings" settings {}
    machines := ← optional f "machines" (named machine) {}
    recipes := ← optional f "recipes" (named recipe) {}
    provision := ← optional f "provision" (list step) [] }

end Reader

/-- The configuration that a text holds. -/
def Config.ofText (text : String) : Except Error Config :=
  Yaml.Document.readText text Reader.config

end Provisioning

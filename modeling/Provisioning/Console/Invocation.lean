import Provisioning.Config.Issue
import Provisioning.Config.Reader
import Provisioning.Console.Text
import Provisioning.Recipe

/-!
# What people ask for

Somebody asks for a configuration to be checked, listed, planned or applied.  Before anything else
the configuration is read and checked as a whole, and machines are chosen from it.
-/

namespace Provisioning

namespace Console

/-- What is asked for. -/
inductive Invocation where
  /-- Whether a configuration is without faults. -/
  | validate (file : String)
  /-- The tasks of a configuration. -/
  | tasks (file : String)
  /-- What a run would do, on all machines or one. -/
  | plan (file : String) (machine? : Option String)
  /-- A run on all machines or one, with journals below a directory if one is given; what happens
  is told unless it is to be quiet. -/
  | apply (file : String) (machine? journals? : Option String) (quiet : Bool)

/-- Why something asked for is not done. -/
inductive Error where
  /-- The configuration cannot be read. -/
  | unreadable (file reason : String)
  /-- It is no configuration. -/
  | malformed (e : Yaml.Error)
  /-- It has faults. -/
  | invalid (issues : List Issue)
  /-- Its tasks cannot be made. -/
  | compile (e : CompileError)
  /-- A machine that is not in it. -/
  | unknownMachine (name : String)
  /-- There is nothing to work on. -/
  | noMachines
  /-- A host whose plan cannot be made. -/
  | host (name : String) (e : RunError)
  /-- Some hosts failed. -/
  | fleet (e : FleetError)

/-- What is said of the reason. -/
def Error.message : Error → String
  | unreadable file reason => "failed to read " ++ file ++ ": " ++ reason
  | malformed e => "YAML parse error: " ++ e.message
  | invalid issues => issuesMessage issues
  | compile e => "compile error: " ++ e.message
  | unknownMachine name => "unknown machine '" ++ name ++ "'"
  | noMachines => "no machines defined"
  | host name e => name ++ ": " ++ e.message
  | fleet e => e.message

/-- The text that bytes are, if they are one. -/
def text? (bytes : List UInt8) : Option String :=
  let cs := Utf8.decodeChars bytes
  if Utf8.encode cs = bytes then some (String.ofList cs) else none

/-- The configuration without faults that the bytes of a file are. -/
def load (file : String) (bytes : List UInt8) : Except Error Config :=
  match text? bytes with
  | none => .error (.unreadable file "stream did not contain valid UTF-8")
  | some text =>
    match Config.ofText text with
    | .error e => .error (.malformed e)
    | .ok c => if c.issues.isEmpty then .ok c else .error (.invalid c.issues)

/-- The tasks of a configuration. -/
def compile (c : Config) : Except Error (List Task) := c.compile.mapError .compile

/-- The machines to work on, in order: all, or the one of a name. -/
def chosenMachines (c : Config) (machine? : Option String) :
    Except Error (List (String × Machine)) :=
  match machine? with
  | some name =>
    match c.machines.get? name with
    | some m => .ok [(name, m)]
    | none => .error (.unknownMachine name)
  | none => if c.machines.isEmpty then .error .noMachines else .ok c.machines.entries

end Console

end Provisioning

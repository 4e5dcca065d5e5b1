import Provisioning.Console.Invocation

/-!
# Arguments of the program

The first argument says what is asked for, the others name the configuration, a machine and a
directory for journals.
-/

namespace Provisioning

namespace Console

/-- What the arguments after the first one say. -/
structure Choices where
  /-- The configuration. -/
  file : String := "strata.yaml"
  /-- The machine, if it is only one. -/
  machine? : Option String := none
  /-- The directory for journals, if there are to be any. -/
  journals? : Option String := none
  /-- Whether it is to be quiet. -/
  quiet : Bool := false

/-- Reads the arguments after the first one. -/
def Choices.read (c : Choices) : List String → Option Choices
  | [] => some c
  | "-q" :: args | "--quiet" :: args => read { c with quiet := true } args
  | "-f" :: file :: args | "--file" :: file :: args => read { c with file } args
  | "-m" :: name :: args | "--machine" :: name :: args => read { c with machine? := some name } args
  | "--events" :: dir :: args => read { c with journals? := some dir } args
  | _ => none

/-- What the arguments ask for. -/
def Invocation.ofArgs? : List String → Option Invocation
  | [] => none
  | asked :: args => do
    let c ← Choices.read {} args
    match asked with
    | "validate" => some (.validate c.file)
    | "tasks" => some (.tasks c.file)
    | "plan" => some (.plan c.file c.machine?)
    | "apply" => some (.apply c.file c.machine? c.journals? c.quiet)
    | _ => none

/-- The configuration that is asked about. -/
def Invocation.file : Invocation → String
  | validate file | tasks file | plan file _ | apply file _ _ _ => file

/-- The directory for journals, if there are to be any. -/
def Invocation.journals? : Invocation → Option String
  | apply _ _ journals? _ => journals?
  | _ => none

/-- How the program is called. -/
def usage : String :=
  "usage: provisioning (validate | tasks | plan | apply) [--file FILE] [--machine NAME]"
    ++ " [--events DIR] [--quiet]"

end Console

end Provisioning

import Provisioning.Rehearsal.Shell.Arithmetic
import Provisioning.Rehearsal.Shell.Field
import Provisioning.Rehearsal.Shell.Grammar
import Provisioning.Rehearsal.Tool.Print
import Provisioning.Rehearsal.Tool.Tree

/-!
# What a shell works with

Files, streams and a count of processes are shared by all shells; variables, the working directory
and the like belong to one.  A script is left early by `Leave`.
-/

namespace Provisioning

namespace Rehearsal

namespace Shell

/-- Where output goes. -/
inductive Sink where
  /-- To a buffer, by number. -/
  | buffer (i : Nat)
  /-- To the file at a place. -/
  | file (at_ : Place)
  /-- Nowhere. -/
  | closed

/-- The streams of a command. -/
structure Streams where
  /-- The number of its input. -/
  input : Nat := 0
  /-- Where its output goes. -/
  out : Sink := .buffer 0
  /-- Where its complaints go. -/
  err : Sink := .buffer 1

/-- What belongs to one shell. -/
structure Env where
  /-- The working directory. -/
  cwd : Place := []
  /-- The variables. -/
  vars : List (String × String) := []
  /-- The names of the variables that programs get. -/
  exported : List String := []
  /-- The commands defined by the script. -/
  defined : List (String × Command) := []
  /-- The arguments of the script. -/
  args : List String := []
  /-- The name of the script. -/
  name : String := "bash"
  /-- The number of the process. -/
  pid : Nat := 1
  /-- The exit code of the last command. -/
  status : Nat := 0
  /-- The line that is run. -/
  line : Nat := 1
  /-- Whether the first failure ends the script. -/
  strict : Bool := false
  /-- Whether a variable that is not set is a failure. -/
  careful : Bool := false
  /-- Whether a pipeline fails with any of its commands. -/
  pipeFails : Bool := false
  /-- Whether the whole script is one command, which then takes the place of the shell. -/
  single : Bool := false
  /-- The number of loops under way. -/
  loops : Nat := 0
  /-- The number of defined commands and read scripts under way. -/
  calls : Nat := 0
  /-- The variables of the defined command under way, with the values that they had before. -/
  locals : List (String × Option String) := []
  /-- What is run on a signal, by its number; 0 stands for the end of the script. -/
  traps : List (Nat × String) := []
  /-- What is still to be run on signals that have come. -/
  due : List String := []

/-- All that scripts work with. -/
structure Session where
  /-- The files. -/
  files : Files
  /-- What has been printed to each buffer. -/
  buffers : Array (Array UInt8) := #[#[], #[]]
  /-- What is left of each input. -/
  inputs : Array (List UInt8) := #[[]]
  /-- The number of the latest process. -/
  lastPid : Nat := 1000
  /-- The shell at work. -/
  env : Env := {}

/-- How a script is left early. -/
inductive Leave where
  /-- The shell ends. -/
  | exit (code : Nat)
  /-- The shell is killed. -/
  | killed (signal : Nat)
  /-- So many loops end, or the last of them goes on with its next round. -/
  | loop (levels : Nat) (again : Bool)
  /-- A defined command ends. -/
  | back
  /-- There is no fuel left. -/
  | spent

/-- A step of a script. -/
abbrev M := ExceptT Leave (StateM Session)

/-- The shell at work. -/
def env : M Env := return (← get).env

/-- Changes the shell at work. -/
def modifyEnv (f : Env → Env) : M Unit := modify fun s => { s with env := f s.env }

/-- Sets the exit code of the last command. -/
def setStatus (code : Nat) : M Unit := modifyEnv fun e => { e with status := code }

/-- The exit code that a number stands for. -/
def exitCode (n : Int) : Nat := (n % 256).toNat

/-! ### Streams -/

/-- Writes bytes. -/
def write (sink : Sink) (bytes : List UInt8) : M Unit :=
  match sink with
  | .buffer i => modify fun s => { s with buffers := s.buffers.modify i (· ++ bytes.toArray) }
  | .file at_ => modify fun s => { s with files := s.files.append at_ bytes }
  | .closed => pure ()

/-- A complaint of the shell, in a line. -/
def complain (io : Streams) (s : String) : M Unit := do
  let e ← env
  write io.err (textBytes (e.name ++ ": line " ++ toString e.line ++ ": " ++ s ++ "\n"))

/-- A new buffer. -/
def newBuffer : M Nat := do
  let n := (← get).buffers.size
  modify fun s => { s with buffers := s.buffers.push #[] }
  return n

/-- A new input. -/
def newInput (bytes : List UInt8) : M Nat := do
  let n := (← get).inputs.size
  modify fun s => { s with inputs := s.inputs.push bytes }
  return n

/-- The line that an input begins with, which is used up, and whether it is complete. -/
def takeLine (i : Nat) : M (List UInt8 × Bool) := do
  let bytes := (← get).inputs[i]?.getD []
  let line := bytes.takeWhile (· != 10)
  let rest := bytes.drop line.length
  modify fun s => { s with inputs := s.inputs.set! i (rest.drop 1) }
  return (line, !rest.isEmpty)

/-! ### Variables -/

/-- Sets a variable. -/
def assign (name value : String) : M Unit :=
  modifyEnv fun e => { e with vars := (name, value) :: e.vars.filter (·.1 != name) }

/-- Removes a variable. -/
def unassign (name : String) : M Unit :=
  modifyEnv fun e => { e with vars := e.vars.filter (·.1 != name) }

/-- Lets programs get a variable. -/
def exportVar (name : String) : M Unit :=
  modifyEnv fun e => { e with exported := name :: e.exported.filter (· != name) }

namespace Env

/-- The value of a variable or of one of the signs that always have one. -/
def value? (e : Env) (name : String) : Option String :=
  match name with
  | "?" => some (toString e.status)
  | "$" => some (toString e.pid)
  | "#" => some (toString e.args.length)
  | "0" => some e.name
  | "!" => some ""
  | "-" => some (if e.strict then "ehBc" else "hBc")
  | "@" | "*" => some (Text.join " " e.args)
  | "PWD" => some (Tool.placeText e.cwd)
  | "LINENO" => some (toString e.line)
  | "BASHPID" => some (toString e.pid)
  | "UID" | "EUID" => some "0"
  | _ =>
    match Decimal.readNat name.toList with
    | some n => e.args[n - 1]?
    | none => e.vars.lookup name

/-- The variables that programs get. -/
def environment (e : Env) : List (String × String) :=
  e.exported.reverse.filterMap fun name => (e.vars.lookup name).map fun v => (name, v)

end Env

/-- The value of an expression, whose variables are set; none, with a complaint after some words,
if it has none. -/
def calculate (io : Streams) (lead expr : String) : M (Option Int64) := do
  let e ← env
  match arithmetic (fun name => (e.value? name).getD "") expr with
  | .ok (n, stored) =>
    stored.forM fun (name, n) => assign name (Decimal.ofInt64 n)
    return some n
  | .error fault =>
    complain io (lead ++ fault.message expr)
    return none

/-- Calculates an expression, which succeeds if its value is not 0. -/
def calculateStatus (io : Streams) (lead expr : String) : M Unit := do
  match ← calculate io lead expr with
  | some n => setStatus (if n == 0 then 1 else 0)
  | none => setStatus 1

/-! ### Tools -/

/-- Has a tool do its work with some variables. -/
def useTool (io : Streams) (environment : List (String × String)) (tool : Tool)
    (args : List String) : M Unit := do
  let s ← get
  let desk : Desk := {
    files := s.files, cwd := s.env.cwd, input := s.inputs[io.input]?.getD [], environment }
  let (code, desk) := (tool args).run desk
  modify fun s =>
    { s with files := desk.files, inputs := s.inputs.set! io.input desk.input }
  desk.printed.reverse.forM fun (origin, bytes) =>
    write (if origin == .stdout then io.out else io.err) bytes
  setStatus code

/-- Runs something, and tells how it was left early if it was. -/
def attempt (body : M Unit) : M (Option Leave) :=
  tryCatch (do
    body
    return none) fun l => return some l

/-- Runs what a shell of its own runs, and returns to the shell at work.  Only files, streams and
the exit code remain; a signal to the shell reaches both. -/
def apart (body : M Unit) : M Unit := do
  let outer ← env
  modifyEnv fun e => { e with single := false, traps := e.traps.filter (·.2.isEmpty) }
  let leave? ← attempt body
  let status := (← env).status
  modifyEnv fun _ => outer
  match leave? with
  | some (.killed signal) => throw (.killed signal)
  | some .spent => throw .spent
  | some (.exit code) => setStatus code
  | _ => setStatus status

end Shell

end Rehearsal

end Provisioning

import Provisioning.Host.Login
import Provisioning.Host.Script
import Provisioning.Rehearsal.Shell.Run

/-!
# A computer in memory

A computer has files, a working directory and variables.  It runs programs, among them a shell;
what they print and how they end is given back, and the files are as the programs leave them.
-/

namespace Provisioning

namespace Rehearsal

/-- A computer in memory. -/
structure Computer where
  /-- Its files. -/
  files : Files
  /-- The working directory. -/
  cwd : Place
  /-- The variables that programs get. -/
  environment : List (String × String)

/-- What has come of a program. -/
structure Deed where
  /-- The exit code; −1 if a signal ended it. -/
  exitCode : Int
  /-- What it printed. -/
  stdout : List UInt8
  /-- Its complaints. -/
  stderr : List UInt8

namespace Computer

/-- How deep programs may go. -/
def fuel : Nat := 100000

/-- The list of users. -/
def users : String := "root:x:0:0:root:/root:/bin/bash\n"

/-- The directories that are always there, the file that takes everything and the list of users. -/
def bareFiles : Files :=
  [["bin"], ["dev"], ["etc"], ["home"], ["proc"], ["root"], ["tmp"], ["usr"], ["usr", "bin"],
    ["var"], ["var", "tmp"]].foldl (fun fs p => fs.put p .directory)
    ((Files.put {} Files.sink (.file [])).put ["etc", "passwd"] (.file (textBytes users)))

/-- A computer with a working directory, for whoever is at work. -/
def new (who : Surroundings) (cwd : Place) : Computer where
  files := (List.range cwd.length).foldl (fun fs i => fs.put (cwd.take (i + 1)) .directory)
    bareFiles
  cwd := cwd
  environment := [("USER", who.user), ("LOGNAME", who.user),
    ("PATH", "/usr/local/sbin:/usr/local/bin:/usr/sbin:/usr/bin:/sbin:/bin"), ("LC_ALL", "C"),
    ("HOME", who.home?.getD "/root"), ("SHLVL", "1")]

/-! ### Files -/

/-- Writes a file, and makes the directories above it.  What cannot be written is not. -/
def write (c : Computer) (path : String) (bytes : List UInt8) : Computer :=
  let (files, _) := c.files.makePath c.cwd ((Path.parent? path).getD "")
  match files.ready c.cwd path true with
  | .ok (at_, files) => { c with files := files.append at_ bytes }
  | .error _ => c

/-- Removes what a path leads to, and all below it. -/
def remove (c : Computer) (path : String) : Computer :=
  match c.files.resolve c.cwd path with
  | .ok at_ => { c with files := c.files.prune at_ }
  | .error _ => c

/-- The paths of the files below a directory, seen from there. -/
def list (c : Computer) (path : String) : List String :=
  match c.files.resolve c.cwd path with
  | .ok at_ => (c.files.filesBelow at_).map Prod.fst
  | .error _ => []

/-- The lines of a file. -/
def lines? (c : Computer) (path : String) : Option (List String) :=
  (c.files.read c.cwd path).toOption.map fun bytes => Text.lines (Utf8.decode bytes)

/-! ### Programs -/

/-- The bytes from which on a single argument is too long for a program to be started with. -/
def argumentLimit : Nat := 131072

/-- Why a program cannot be started, if so. -/
def spawnFault? (c : Computer) (path : String) (args : List String) : Option String :=
  let name := Shell.programName path
  let system (reason : String) (number : Nat) : Option String :=
    some (reason ++ " (os error " ++ toString number ++ ")")
  if (path :: args).any fun a => a.toList.contains '\x00' then
    some "nul byte found in provided data"
  else if Shell.isProgram name then
    if (path :: args).any fun a => argumentLimit ≤ a.utf8ByteSize then
      system "Argument list too long" 7
    else none
  else if !path.toList.contains '/' then
    system FileError.notFound.message FileError.notFound.number
  else
    match c.files.find c.cwd path with
    | .error e => system e.message e.number
    | .ok _ => system "Permission denied" 13

/-- Runs a program with some input. -/
def run (c : Computer) (path : String) (args : List String) (input : List UInt8) :
    Except TransportError Deed × Computer :=
  match c.spawnFault? path args with
  | some reason => (.error (.spawn path reason), c)
  | none =>
    let session : Shell.Session := {
      files := c.files
      inputs := #[input]
      env := {
        cwd := c.cwd
        vars := c.environment
        exported := (c.environment.map Prod.fst).reverse
        single := true } }
    let (result, session) := (Shell.program fuel {} path args).run session
    let code : Int := match result with
      | .error (.killed _) | .error .spent => -1
      | .error (.exit code) => code
      | _ => session.env.status
    let printed (i : Nat) : List UInt8 := (session.buffers[i]?.getD #[]).toList
    (.ok ⟨code, printed 0, printed 1⟩, { c with files := session.files })

/-- Runs a script. -/
def shell (c : Computer) (call : Call) : Reply × Computer :=
  let input := textBytes (String.join (call.input.map (· ++ "\n")))
  match c.run "bash" ["-c", call.shell] input with
  | (.error e, c) => (.refused e, c)
  | (.ok deed, c) =>
    (.session {
      stdout? := some (.ofBytes deed.stdout)
      stderr? := some (.ofBytes deed.stderr)
      exit := .ok deed.exitCode }, c)

/-- The computer as a host that is reached in some way: by its own shell, or by a program for
remote shells that meets everything in silence. -/
def host : Login → Talk.Host (StateM Computer)
  | .shell _ => { ask := fun call c => c.shell call, reset := pure (.ok ()) }
  | .ssh _ => { ask := fun _ => pure .silent, reset := pure (.ok ()) }

end Computer

/-! ### Programs under way -/

/-- A program that may have been started. -/
structure Child where
  /-- The program. -/
  path : String
  /-- Its arguments. -/
  args : List String
  /-- Whether it has been started. -/
  started : Bool := false
  /-- Whether its input is still to be had. -/
  hasInput : Bool := false
  /-- What has been written to it. -/
  input : List UInt8 := []
  /-- Whether its output is still to be had. -/
  hasStdout : Bool := false
  /-- Whether its complaints are still to be had. -/
  hasStderr : Bool := false
  /-- What has come of it, once that is known. -/
  deed? : Option Deed := none

namespace Child

/-- A computer and a program that it runs. -/
abbrev Step := StateM (Computer × Child)

/-- Starts the program. -/
def start : Step (Except TransportError Unit) := do
  let (c, child) ← get
  match c.spawnFault? child.path child.args with
  | some reason => return .error (.spawn child.path reason)
  | none =>
    set (c, { child with
      started := true, hasInput := true, hasStdout := true, hasStderr := true, input := []
      deed? := none })
    return .ok ()

/-- What comes of the program, which gets no further input. -/
def finish : Step (Option Deed) := do
  let (c, child) ← get
  if !child.started then return none
  match child.deed? with
  | some deed => return some deed
  | none =>
    match c.run child.path child.args child.input with
    | (.error _, _) => return none
    | (.ok deed, c) =>
      set (c, { child with deed? := some deed })
      return some deed

/-- Takes the input away; tells whether it was to be had. -/
def closeInput : Step Bool := do
  let (c, child) ← get
  set (c, { child with hasInput := false })
  return child.hasInput

/-- Writes the input, which is then closed; tells whether it was to be had. -/
def feed (text : String) : Step Bool := do
  let (c, child) ← get
  if child.hasInput then
    set (c, { child with hasInput := false, input := textBytes text })
    return true
  else return false

/-- The output, or the complaints, if they are still to be had. -/
def take (origin : Origin) : Step (Option String) := do
  let (_, child) ← get
  let there := match origin with
    | .stdout => child.hasStdout
    | .stderr => child.hasStderr
  if !there then return none
  else
    let deed? ← finish
    modify fun (c, child) => match origin with
      | .stdout => (c, { child with hasStdout := false })
      | .stderr => (c, { child with hasStderr := false })
    return deed?.map fun deed => match origin with
      | .stdout => Utf8.decode deed.stdout
      | .stderr => Utf8.decode deed.stderr

/-- Waits for the end, and gives the exit code. -/
def wait : Step (Except TransportError Int) := do
  let _ ← closeInput
  match ← finish with
  | some deed => return .ok deed.exitCode
  | none => return .error .notStarted

/-- Starts the program, takes its output away and waits for the end. -/
def run : Step (Except TransportError Int) := do
  match ← start with
  | .error e => return .error e
  | .ok () =>
    modify fun (c, child) =>
      (c, { child with hasInput := false, hasStdout := false, hasStderr := false })
    wait

end Child

end Rehearsal

end Provisioning

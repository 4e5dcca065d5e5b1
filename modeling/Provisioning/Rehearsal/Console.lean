import Provisioning.Console.Invocation
import Provisioning.Rehearsal.Computer
import Provisioning.Rehearsal.Journal
import Provisioning.Rehearsal.Stage

/-!
# Rehearsing what people ask for

Everything is done on a computer in memory: it holds the configuration, stands for every machine
with a local address and keeps caches and journals.  What is printed is given back.
-/

namespace Provisioning

namespace Rehearsal

/-- A computer, and what somebody at it reads. -/
structure Scene where
  /-- The computer. -/
  computer : Computer
  /-- Who is at it. -/
  who : Surroundings
  /-- The lines printed, latest first. -/
  printed : List String := []

namespace Scene

open Console (Invocation)

/-- A step at a computer, which may fail. -/
abbrev Step := ExceptT Console.Error (StateM Scene)

/-- Prints a line. -/
def say (line : String) : Step Unit := modify fun s => { s with printed := line :: s.printed }

/-- Does something at the computer itself. -/
def atComputer {α : Type} (x : StateM Computer α) : StateM Scene α := fun s =>
  let (a, computer) := x s.computer
  (a, { s with computer })

/-- A failure or a result as a step. -/
def lift {α : Type} (r : Except Console.Error α) : Step α := ExceptT.mk (pure r)

/-- The configuration in a file. -/
def load (file : String) : Step Config := do
  let c := (← get).computer
  match c.files.read c.cwd file with
  | .error e =>
    throw (.unreadable file (e.message ++ " (os error " ++ toString e.number ++ ")"))
  | .ok bytes => lift (Console.load file bytes)

/-- Tells what happens: people unless it is to be quiet, and the journals if there are any. -/
def tell (quiet : Bool) (journals? : Option String) (e : Event) : StateM Scene Unit := do
  if !quiet then
    if let some line := Console.eventLine? e then
      modify fun s => { s with printed := line :: s.printed }
  if let some dir := journals? then
    modify fun s =>
      let (files, _) := s.computer.files.journal s.computer.cwd dir e
      { s with computer := { s.computer with files } }

/-- A machine as a place of runs. -/
def handler (login : Login) (told : Happening → StateM Scene Unit) :
    Script.Handler (StateM Scene) where
  ask call := atComputer ((Computer.host login).ask call)
  reset := atComputer (Computer.host login).reset
  tell := told
  log job := atComputer <|
    (Log.write job.dir job.sum (job.lines.map (·.render Stage.noTime))).runWith
      (Computer.host login)

/-- Who runs tasks on a machine, and how it is reached. -/
def reach (c : Config) (m : Machine) : Step (Runner × Login) := do
  let login := Login.ofMachine (← get).who m
  return (⟨login.user, c.settings⟩, login)

/-- Shows the plans of machines; gives the plans of all. -/
def showPlans (c : Config) (tasks : List Task) : List (String × Machine) → Step (List Plan)
  | [] => return []
  | (name, m) :: machines => do
    let (runner, login) ← reach c m
    match ← (runner.plan tasks).runWith (handler login fun _ => pure ()) with
    | .error e => throw (.host name e)
    | .ok ps =>
      say (name ++ ":")
      (ps.flatMap Console.planLines).forM say
      return ps ++ (← showPlans c tasks machines)

/-- Runs tasks on machines, one after another. -/
def applyAll (c : Config) (tasks : List Task) (quiet : Bool) (journals? : Option String) :
    List (String × Machine) → Step FleetReport
  | [] => return []
  | (name, m) :: machines => do
    let (runner, login) ← reach c m
    let told (what : Happening) : StateM Scene Unit :=
      tell quiet journals? ⟨Stage.noTime, some name, what⟩
    let outcome ← (runner.provision tasks).runWith (handler login told)
    return HostReport.ofOutcome name (some outcome)
      :: (← applyAll c tasks quiet journals? machines)

/-- Does what is asked for. -/
def perform : Invocation → Step Unit
  | .validate file => do
    let c ← load file
    say (Console.validLine c (← lift (Console.compile c)))
  | .tasks file => do
    let c ← load file
    ((← lift (Console.compile c)).flatMap Console.taskLines).forM say
  | .plan file machine? => do
    let c ← load file
    let tasks ← lift (Console.compile c)
    let machines ← lift (Console.chosenMachines c machine?)
    say (Console.planningLine c tasks)
    say ""
    let plans ← showPlans c tasks machines
    say ""
    say (Console.planTotalLine plans)
  | .apply file machine? journals? quiet => do
    let c ← load file
    let machines ← lift (Console.chosenMachines c machine?)
    let tasks ← lift (Console.compile c)
    tasks.forM fun t =>
      tell quiet journals? ⟨Stage.noTime, none, .taskCompiled t.name t.actions.length⟩
    let report ← applyAll c tasks quiet journals? machines
    say ""
    report.forM fun r => say (Console.hostLine r)
    match report.result with
    | .ok total => say (Console.doneLine total)
    | .error e => throw (.fleet e)

end Scene

/-- What somebody who asked for something gets to read. -/
structure Outcome where
  /-- What is printed. -/
  stdout : String
  /-- What is complained of. -/
  stderr : String
  /-- The exit code. -/
  exitCode : Nat

/-- Does at a computer what is asked for. -/
def Computer.perform (c : Computer) (who : Surroundings) (asked : Console.Invocation) :
    Outcome × Computer :=
  let (result, scene) := (Scene.perform asked).run { computer := c, who }
  let stdout := String.join (scene.printed.reverse.map (· ++ "\n"))
  (match result with
    | .ok () => ⟨stdout, "", 0⟩
    | .error e => ⟨stdout, "error: " ++ e.message ++ "\n", 1⟩, scene.computer)

end Rehearsal

end Provisioning

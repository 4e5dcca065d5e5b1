import Provisioning.Cache.Plan
import Provisioning.Run.Counts
import Provisioning.Run.Preparation

/-!
# Running a task

A task runs by its plan.  Skipped commands are told of; before the first command that runs, or at
the end if none does, the stale markers are deleted.  After every command a marker of success or
of failure is written.  The first failure ends the task.
-/

namespace Provisioning

/-- Who runs tasks on a host, and how. -/
structure Runner where
  /-- Who logs in. -/
  user : String
  /-- How provisioning is done. -/
  settings : Settings

/-- A script that may fail. -/
abbrev Attempt := ExceptT RunError Script

/-- Tells what happens. -/
def tell (what : Happening) : Script Unit := .tell what (.done ())

namespace Runner

variable (r : Runner)

/-- The words that export the variables of the environment. -/
def exports : List (String × String) → String
  | [] => ""
  | (name, value) :: env =>
    "export " ++ name ++ "=" ++ Shell.quote value ++ "; " ++ exports env

/-- The text that the host gets for the script of a command. -/
def wrap (script : String) : String :=
  strictShell (r.settings.elevation.applies r.user)
    (exports r.settings.env.entries ++ script)

/-- Runs a piece of bookkeeping for a task. -/
def bookkeep (task action script : String) : Attempt Unit := do
  match ← (capture script : Script _) with
  | .error e => throw (.transport e)
  | .ok out =>
    if out.succeeded then pure ()
    else throw (.bookkeeping task action out.exitCode out.complaint)

/-! ### Bookkeeping -/

/-- The script that makes the directory of a task. -/
def makeDirScript (dir : String) : String :=
  let dir := Shell.quote dir
  "test -d " ++ dir ++ " || \x7b mkdir -p " ++ dir ++ " && chmod g+w " ++ dir ++ "; \x7d"

/-- The script that deletes markers of success. -/
def deleteScript (dir : String) (sums : List String) : String :=
  "rm -f " ++ Text.join " " (sums.map fun sum => Shell.quote (Cache.donePath dir sum))

/-- The words that put the script of a command into a file. -/
def recordScript (script path : String) : String :=
  "printf '%s' " ++ String.ofList (Base64.encode (textBytes script)) ++ " | base64 -d > "
    ++ Shell.quote path

/-- The script that marks a command as successful. -/
def doneScript (dir sum script : String) : String :=
  recordScript script (Cache.donePath dir sum) ++ " && rm -f "
    ++ Shell.quote (Cache.failedPath dir sum)

/-- The script that marks a command as failed. -/
def failedScript (dir sum script : String) : String :=
  recordScript script (Cache.failedPath dir sum)

/-- Makes the directory of a task. -/
def makeDir (task dir : String) : Attempt Unit :=
  bookkeep task "create cache directory" (makeDirScript dir)

/-- Deletes stale markers, and tells how many. -/
def invalidate (task dir : String) (stale : List String) : Attempt Nat := do
  if stale.isEmpty then pure 0
  else
    bookkeep task "delete stale markers" (deleteScript dir stale)
    tell (.cacheInvalidated task stale)
    pure stale.length

/-- Marks a command as successful. -/
def markDone (task dir sum script : String) : Attempt Unit :=
  bookkeep task "write success marker" (doneScript dir sum script)

/-- Marks a command as failed.  Whether that works out is of no further consequence. -/
def markFailed (task dir sum script : String) : Script Unit := do
  let _ ← (bookkeep task "write failure marker" (failedScript dir sum script)).run
  pure ()

/-! ### Commands -/

/-- What a reader does with a line. -/
inductive ReaderStep where
  /-- The line is told of. -/
  | publish (l : LogLine)
  /-- The line is handed to the log. -/
  | send (l : LogLine)

/-- What the reader of a stream does, in order. -/
def readerSteps (origin : Origin) (s? : Option Stream) : List ReaderStep :=
  ((s?.getD []).lines.map fun text => (⟨origin, text⟩ : LogLine)).flatMap fun l =>
    [.publish l, .send l]

/-- What the readers of both streams of a session do, in order. -/
def allReaderSteps (s : Session) : List ReaderStep :=
  interleave s.turns (readerSteps .stdout s.stdout?) (readerSteps .stderr s.stderr?)

/-- The lines that are told of, in order. -/
def published (steps : List ReaderStep) : List LogLine :=
  steps.filterMap fun
    | .publish l => some l
    | .send _ => none

/-- The lines that are handed to the log, in order. -/
def sent (steps : List ReaderStep) : List LogLine :=
  steps.filterMap fun
    | .send l => some l
    | .publish _ => none

/-- Tells of lines of output. -/
def tellLines (task sum : String) : List LogLine → Script Unit
  | [] => pure ()
  | l :: ls => do
    tell (.commandPrinted task sum l.origin l.text)
    tellLines task sum ls

/-- How a command ended. -/
structure Ending where
  /-- The exit code, or why there is none. -/
  exit : Except TransportError Int
  /-- How long it took, in milliseconds. -/
  millis : Nat

/-- Runs the script of a command: its output is told of and goes into a log.  A log that cannot be
written is told of and changes nothing else. -/
def stream (task dir sum script : String) : Script Ending :=
  .ask ⟨r.wrap script, []⟩ fun
    | .refused e => .done ⟨.error e, 0⟩
    | .session s => do
      let steps := allReaderSteps s
      tellLines task sum (published steps)
      .log ⟨dir, sum, sent steps⟩ fun
        | .ok () => .done ⟨s.exit, s.millis⟩
        | .error e => .tell (.logFailed task sum e.message) (.done ⟨s.exit, s.millis⟩)

/-- Runs a command and marks how it ended. -/
def execute (task dir : String) (a : PlannedAction) : Attempt Unit := do
  tell (.commandStarted task a.index a.sum a.action.label)
  let ending ← (r.stream task dir a.sum a.action.script : Script Ending)
  match ending.exit with
  | .error e =>
    tell (.commandFinished task a.index a.sum (-1) ending.millis
      (some (RunError.transport e).message))
    markFailed task dir a.sum a.action.script
    throw (.transport e)
  | .ok code =>
    tell (.commandFinished task a.index a.sum code ending.millis none)
    if code = 0 then markDone task dir a.sum a.action.script
    else
      markFailed task dir a.sum a.action.script
      throw (.command task a.index a.sum code)

/-! ### Tasks -/

/-- Runs planned actions.  `swept` tells whether the stale markers are gone. -/
def runActions (p : Plan) (dir : String) : (swept : Bool) → Counts → List PlannedAction →
    Attempt Counts
  | swept, counts, [] => do
    if swept then pure counts
    else pure { counts with invalidated := ← invalidate p.task dir p.stale }
  | swept, counts, a :: as =>
    match a.decision with
    | .cached => do
      tell (.commandCached p.task a.index a.sum a.action.label)
      runActions p dir swept { counts with cached := counts.cached + 1 } as
    | .execute => do
      let invalidated ← if swept then pure counts.invalidated else invalidate p.task dir p.stale
      r.execute p.task dir a
      runActions p dir true { counts with invalidated, executed := counts.executed + 1 } as

/-- Runs a task, of which the inventory tells what has succeeded.  What it tells of the task is
used up. -/
def runTask (task : Task) (inv : Inventory) : Script (Except RunError Counts × Inventory) := do
  let dir := Cache.taskDir r.settings.cacheRoot task.name
  match ← (makeDir task.name dir).run with
  | .error e => return (.error e, inv)
  | .ok () =>
    let (known, left) := inv.take task.name
    let p := Plan.ofTask task known
    return (← (r.runActions p dir false .zero p.actions).run, left)

end Runner

end Provisioning

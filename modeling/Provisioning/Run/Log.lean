import Provisioning.Cache.Path
import Provisioning.Host.Script

/-!
# Writing the log of a command

The lines of a command go into a file of a provisional name, through a session of its own.  Only
if that session takes every line and ends well is the file moved to its place, so that what
stands there is complete.
-/

namespace Provisioning

namespace Log

/-- The script that writes its input into the provisional file. -/
def writeScript (dir sum : String) : String :=
  "cat > " ++ Shell.quote (Cache.partialLogPath dir sum)

/-- The script that moves the provisional file to its place. -/
def finalizeScript (dir sum : String) : String :=
  let tmp := Shell.quote (Cache.partialLogPath dir sum)
  let log := Shell.quote (Cache.logPath dir sum)
  "mv " ++ tmp ++ " " ++ log ++ " && chmod g+w " ++ log

/-- What the session that writes the lines comes to. -/
def written (s : Session) (lines : List String) : Except LogError Unit :=
  match s.exit with
  | .error e => .error (.transport e)
  | .ok code =>
    match s.intake with
    | .absent => .error .noInput
    | intake =>
      match (intake.accept lines).2 with
      | some message => .error (.write message)
      | none => if code = 0 then .ok () else .error (.session code)

/-- Moves the provisional file to its place. -/
def finalize (dir sum : String) : Talk (Except LogError Unit) := do
  match ← capture (finalizeScript dir sum) with
  | .error e => return .error (.transport e)
  | .ok out =>
    if out.succeeded then return .ok ()
    else return .error (.finalize out.exitCode out.complaint)

/-- Writes the log of a command. -/
def write (dir sum : String) (lines : List String) : Talk (Except LogError Unit) :=
  .ask ⟨writeScript dir sum, lines⟩ fun
    | .refused e => .done (.error (.transport e))
    | .session s =>
      match written s lines with
      | .error e => .done (.error e)
      | .ok () => finalize dir sum

end Log

end Provisioning

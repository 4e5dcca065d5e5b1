import Provisioning.Cache.Plan
import Provisioning.Config.Basic
import Provisioning.Event.Basic
import Provisioning.Run.Fleet
import Provisioning.Text.Decimal

/-!
# What people read

The lines that are printed of a configuration, of plans, of events and of the outcome of a run.
Checksums are shown by their first twelve digits.
-/

namespace Provisioning

namespace Console

/-- The beginning of a checksum, by which people tell it from others. -/
def shortSum (sum : String) : String := String.ofList (sum.toList.take 12)

/-! ### Configurations -/

/-- The line on a configuration without faults. -/
def validLine (c : Config) (tasks : List Task) : String :=
  "OK: " ++ c.name ++ " (" ++ toString c.machines.size ++ " machines, " ++ toString tasks.length
    ++ " tasks, " ++ toString (tasks.flatMap Task.actions).length ++ " commands)"

/-- The lines on a task. -/
def taskLines (t : Task) : List String :=
  (t.name ++ ":") ::
    ((List.range t.actions.length).zip (t.actions.zip t.checksums)).map fun (i, a, sum) =>
      "  " ++ Decimal.padded 3 i ++ " " ++ shortSum sum ++ " " ++ a.label

/-! ### Plans -/

/-- The sign of a decision. -/
def sign : Decision → String
  | .cached => "="
  | .execute => "+"

/-- The lines on the plan of a task. -/
def planLines (p : Plan) : List String :=
  ("  " ++ p.task) ::
    (p.actions.map fun a =>
      "    " ++ sign a.decision ++ " " ++ Decimal.padded 3 a.index ++ " " ++ shortSum a.sum ++ " "
        ++ a.action.label)
      ++ p.stale.map fun sum => "    -     " ++ shortSum sum

/-- The line on what is planned, before it is shown. -/
def planningLine (c : Config) (tasks : List Task) : String :=
  "Planning: " ++ c.name ++ " (" ++ toString tasks.length ++ " tasks)"

/-- Some numbers together. -/
def total (ns : List Nat) : Nat := ns.foldl (· + ·) 0

/-- The line on all plans. -/
def planTotalLine (ps : List Plan) : String :=
  "Plan: " ++ toString (total (ps.map Plan.toExecute)) ++ " to execute, "
    ++ toString (total (ps.map Plan.cached)) ++ " cached, "
    ++ toString (ps.flatMap Plan.stale).length ++ " stale marker(s)."

/-! ### Runs -/

/-- The line on an event, if people are told of it. -/
def eventLine? (e : Event) : Option String :=
  let host := e.host?.getD "-"
  let about (task : String) (index : Nat) : String :=
    host ++ ": " ++ task ++ " #" ++ toString index ++ " "
  match e.what with
  | .commandCached task index _ label => some (about task index ++ "cached: " ++ label)
  | .commandStarted task index _ label => some (about task index ++ "$ " ++ label)
  | .commandPrinted _ _ .stdout line => some (host ++ "  | " ++ line)
  | .commandPrinted _ _ .stderr line => some (host ++ "  ! " ++ line)
  | .commandFinished task index _ _ _ (some error) =>
    some (about task index ++ "did not run: " ++ error)
  | .commandFinished task index _ exitCode millis none =>
    if exitCode = 0 then none
    else
      some (about task index ++ "exited " ++ toString exitCode ++ " after " ++ toString millis
        ++ "ms")
  | .cacheInvalidated task sums =>
    some (host ++ ": " ++ task ++ " invalidated " ++ toString sums.length ++ " marker(s)")
  | _ => none

/-- The line on the outcome of one host. -/
def hostLine (r : HostReport) : String :=
  match r.error? with
  | none =>
    r.host ++ ": " ++ toString r.counts.executed ++ " executed, " ++ toString r.counts.cached
      ++ " cached, " ++ toString r.counts.invalidated ++ " invalidated"
  | some e => r.host ++ ": FAILED: " ++ e.message

/-- The line on a run without failures. -/
def doneLine (total : Counts) : String :=
  "Apply complete: " ++ toString total.executed ++ " executed, " ++ toString total.cached
    ++ " cached."

end Console

end Provisioning

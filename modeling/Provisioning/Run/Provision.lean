import Provisioning.Run.Task

/-!
# Provisioning a host

A host is prepared, its cache listed and every task run in order.  The first failure ends the
work; the markers of what succeeded stay.  A dry run lists the cache and changes nothing.
-/

namespace Provisioning

namespace Runner

variable (r : Runner)

/-- Runs tasks in order, up to the first failure, and counts what the tasks before it did. -/
def runTasks : List Task → Inventory → Counts → Script (Except RunError Unit × Counts)
  | [], _, counts => pure (.ok (), counts)
  | task :: tasks, inv, counts => do
    match ← r.runTask task inv with
    | (.error e, _) => pure (.error e, counts)
    | (.ok done, inv) => runTasks tasks inv (counts + done)

/-- Prepares a host if that is wanted. -/
def prepareIfManaged : Script (Except RunError Unit) := do
  if r.settings.manageGroup then
    return (← (prepare r.settings r.user : Script _)).map fun _ => ()
  else return .ok ()

/-- Prepares a host, lists its cache and runs the tasks. -/
def runHost (tasks : List Task) : Script (Except RunError Unit × Counts) := do
  match ← r.prepareIfManaged with
  | .error e => return (.error e, .zero)
  | .ok () =>
    match ← (takeInventory r.settings.cacheRoot : Script _) with
    | .error e => return (.error (.inventory e), .zero)
    | .ok inv => r.runTasks tasks inv .zero

/-- The message of a failure, if there is one. -/
def failure? (result : Except RunError Unit) : Option String :=
  match result with
  | .ok () => none
  | .error e => some e.message

/-- Provisions a host. -/
def provision (tasks : List Task) : Script (Except RunError Counts) := do
  tell (.hostStarted tasks.length false)
  let (result, counts) ← r.runHost tasks
  tell (.hostFinished counts.executed counts.cached counts.invalidated (failure? result))
  return result.map fun _ => counts

/-- What provisioning a host would do. -/
def plan (tasks : List Task) : Script (Except RunError (List Plan)) := do
  tell (.hostStarted tasks.length true)
  match ← (takeInventory r.settings.cacheRoot : Script _) with
  | .error e => return .error (.inventory e)
  | .ok inv => return .ok (tasks.map fun task => Plan.ofTask task (inv.sums task.name))

end Runner

end Provisioning

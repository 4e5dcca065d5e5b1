import Provisioning.Task

/-!
# What of a task has to run

The commands of a task are known by their cumulative checksums.  As long as these are found in
the cache, in order, the commands need not run; from the first one that is missing on all run
(`Plan.scan`).  The checksums found in the cache that no skipped command has are stale.
-/

namespace Provisioning

/-- What is done with one command. -/
inductive Decision where
  /-- It has succeeded before, after the same commands, and is skipped. -/
  | cached
  /-- It runs. -/
  | execute
deriving DecidableEq, Repr

/-- The word for a decision. -/
def Decision.word : Decision → String
  | cached => "CACHED"
  | execute => "EXECUTE"

/-- One command of a plan. -/
structure PlannedAction where
  /-- Its place in the task. -/
  index : Nat
  /-- Its cumulative checksum. -/
  sum : String
  /-- What it runs. -/
  action : Action
  /-- What is done with it. -/
  decision : Decision
deriving DecidableEq, Repr

/-- What is to be done for a task. -/
structure Plan where
  /-- The name of the task. -/
  task : String
  /-- Its commands, in order. -/
  actions : List PlannedAction
  /-- The checksums whose markers are to be deleted, sorted. -/
  stale : List String
deriving DecidableEq, Repr

namespace Plan

/-- The decisions on the commands with the given checksums, and the known checksums that no
skipped command has. -/
def scan : List String → List String → List Decision × List String
  | known, [] => ([], known)
  | known, sum :: sums =>
    if sum ∈ known then
      let (decisions, rest) := scan (known.filter (· ≠ sum)) sums
      (.cached :: decisions, rest)
    else ((sum :: sums).map fun _ => .execute, known)

/-- Texts in order, none twice. -/
def sortedSet (xs : List String) : List String :=
  xs.eraseDups.mergeSort

/-- The planned actions of a task, the first of which stands at `index`. -/
def actionsFrom : Nat → List Action → List String → List Decision → List PlannedAction
  | index, action :: actions, sum :: sums, decision :: decisions =>
    ⟨index, sum, action, decision⟩ :: actionsFrom (index + 1) actions sums decisions
  | _, _, _, _ => []

/-- The plan for a task of which some checksums are known. -/
def ofTask (task : Task) (known : List String) : Plan :=
  let sums := task.checksums
  let (decisions, rest) := scan known sums
  { task := task.name
    actions := actionsFrom 0 task.actions sums decisions
    stale := sortedSet rest }

/-- The number of commands that run. -/
def toExecute (p : Plan) : Nat :=
  (p.actions.filter (·.decision = .execute)).length

/-- The number of commands that are skipped. -/
def cached (p : Plan) : Nat :=
  p.actions.length - p.toExecute

@[simp] theorem length_scan (known sums : List String) :
    (scan known sums).1.length = sums.length := by
  induction sums generalizing known with
  | nil => rfl
  | cons sum sums ih =>
    unfold scan
    split
    · simp [ih]
    · simp

end Plan

end Provisioning

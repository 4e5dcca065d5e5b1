import Provisioning.Cache.Inventory
import Provisioning.Run.Log

/-!
# A stand-in for a host

A stage plays the part of a host in a rehearsal.  Its rules say how it meets the scripts that it
is asked to run; where no rule applies it lists its markers when asked to, and meets all else in
silence.  It keeps a record of what it was asked and told.
-/

namespace Provisioning

namespace Rehearsal

/-- How scripts of some shape are met. -/
structure Rule where
  /-- How the script begins. -/
  lead? : Option String := none
  /-- What the script holds. -/
  contains? : Option String := none
  /-- How often the rule still applies; always if that is not said. -/
  uses? : Option Nat := none
  /-- What comes of the script; nothing if the worker that asks dies of it. -/
  effect : Option Reply

/-- Whether a rule applies to a script. -/
def Rule.applies (r : Rule) (shell : String) : Bool :=
  (r.lead?.all fun l => l.toList.isPrefixOf shell.toList)
    && (r.contains?.all fun c => Text.contains c.toList shell.toList)
    && r.uses? != some 0

/-- What the first rule that applies says of a script, and the rules with that use counted. -/
def meet (shell : String) : List Rule → Option (Option Reply) × List Rule
  | [] => (none, [])
  | r :: rs =>
    if r.applies shell then (some r.effect, { r with uses? := r.uses?.map (· - 1) } :: rs)
    else
      let (effect, rs) := meet shell rs
      (effect, r :: rs)

/-- What a stage was asked for. -/
inductive Asked where
  /-- To run a script, and what was written to it. -/
  | script (shell written : String)
  /-- To close open sessions. -/
  | reset

/-- A stand-in for a host. -/
structure Stage where
  /-- The root of its cache. -/
  root : String
  /-- How it meets scripts. -/
  rules : List Rule := []
  /-- The markers that it lists. -/
  markers : List Marker := []
  /-- Why open sessions cannot be closed, if so. -/
  resetError? : Option String := none
  /-- What it was asked, in order. -/
  asked : List Asked := []
  /-- What it was told, in order. -/
  told : List Happening := []

namespace Stage

/-- The listing of its markers. -/
def listing (st : Stage) : String :=
  String.join (st.markers.map fun m =>
    Cache.donePath (Cache.taskDir st.root m.task) m.sum ++ "\n")

/-- What comes of a script that no rule applies to. -/
def usual (st : Stage) (shell : String) : Reply :=
  if shell == Cache.listingScript st.root then
    .session { stdout? := some (.ofBytes (textBytes st.listing)) }
  else .silent

/-- What a reply leaves written of some lines. -/
def written (lines : List String) : Option Reply → String
  | some (.session s) => Utf8.decode (s.intake.accept lines).1
  | _ => ""

/-- Meets a call.  No reply means that the worker that asks dies. -/
def answer (st : Stage) (call : Call) : Option Reply × Stage :=
  let (effect?, rules) := meet call.shell st.rules
  let reply := effect?.getD (some (st.usual call.shell))
  (reply, { st with rules, asked := st.asked ++ [.script call.shell (written call.input reply)] })

/-- The time at which everything is rehearsed. -/
def noTime : String := "1970-01-01T00:00:00.000Z"

/-- A rehearsal: it goes on until a worker dies. -/
abbrev Play := OptionT (StateM Stage)

/-- The stage as a host. -/
def host : Talk.Host Play where
  ask call := OptionT.mk fun st => st.answer call
  reset := OptionT.mk fun st =>
    let outcome := match st.resetError? with
      | none => .ok ()
      | some message => .error (.io message)
    (some outcome, { st with asked := st.asked ++ [.reset] })

/-- Has a log written by a worker of its own, whose death the run survives. -/
def writeLog (job : LogJob) : Play (Except LogError Unit) :=
  OptionT.mk do
    match ← ((Log.write job.dir job.sum (job.lines.map (·.render noTime))).runWith host).run with
    | some outcome => return some outcome
    | none => return some (.error .died)

/-- The stage as the place of a run. -/
def handler : Script.Handler Play where
  toHost := host
  tell what := OptionT.mk fun st => (some (), { st with told := st.told ++ [what] })
  log := writeLog

/-- The markers after something has happened: the success of a command adds one, and those that
are deleted go. -/
def learn (markers : List Marker) : Happening → List Marker
  | .commandFinished task _ sum 0 _ none =>
    if ⟨task, sum⟩ ∈ markers then markers else markers ++ [⟨task, sum⟩]
  | .cacheInvalidated task sums => markers.filter fun m => !(m.task == task && sums.contains m.sum)
  | _ => markers

/-- Puts aside what was asked and told, and lists from now on what was told of markers. -/
def clear (st : Stage) : Stage :=
  { st with asked := [], told := [], markers := st.told.foldl learn st.markers }

end Stage

end Rehearsal

end Provisioning

import Provisioning.Run.Provision

/-!
# Provisioning many hosts

Every host is provisioned on its own; one that fails does not disturb the others.  At the same time
every host has a worker, whose death is reported as the failure of that host.  One after another the
hosts are provisioned by whoever wants it done, and what that one dies of nobody reports: there are
no reports at all, and the hosts that are left are not reached (`Worker.inTurn`).
-/

namespace Provisioning

/-- What has come of one host. -/
structure HostReport where
  /-- The host. -/
  host : String
  /-- What was done, if all went well. -/
  counts : Counts
  /-- Why the work ended early, if it did. -/
  error? : Option RunError
deriving Repr

/-- What is said of a host whose worker died. -/
def HostReport.workerDied : RunError := .transport (.io "host thread panicked")

/-- The report of a host; no outcome means that its worker died. -/
def HostReport.ofOutcome (host : String) : Option (Except RunError Counts) → HostReport
  | some (.ok counts) => ⟨host, counts, none⟩
  | some (.error e) => ⟨host, .zero, some e⟩
  | none => ⟨host, .zero, some workerDied⟩

/-- The failure of some of many hosts. -/
structure FleetError where
  /-- The number of all hosts. -/
  total : Nat
  /-- Those that failed, and why, in order. -/
  failures : List (String × RunError)

/-- What is said of the failure of some hosts. -/
def FleetError.message (e : FleetError) : String :=
  toString e.failures.length ++ " of " ++ toString e.total ++ " host(s) failed: "
    ++ Text.join "; " (e.failures.map fun (host, e) => host ++ ": " ++ e.message)

/-- The reports of all hosts, in order. -/
abbrev FleetReport := List HostReport

namespace FleetReport

/-- All that was done. -/
def totals (r : FleetReport) : Counts := Counts.sum (r.map HostReport.counts)

/-- The hosts that failed, and why. -/
def failures (r : FleetReport) : List (String × RunError) :=
  r.filterMap fun h => h.error?.map fun e => (h.host, e)

/-- The number of hosts that failed. -/
def failed (r : FleetReport) : Nat := r.failures.length

/-- All that was done, or which hosts failed. -/
def result (r : FleetReport) : Except FleetError Counts :=
  if r.failures.isEmpty then .ok r.totals else .error ⟨r.length, r.failures⟩

end FleetReport

/-! ### Workers -/

/-- A host of a fleet. -/
structure FleetHost (σ : Type) where
  /-- Its name. -/
  name : String
  /-- Who logs in. -/
  user : String
  /-- What is there. -/
  place : σ

/-- How scripts are met at a place.  A worker may die of it. -/
abbrev PlaceHandler (σ : Type) := Script.Handler (OptionT (StateM σ))

/-- The work on one host under way. -/
structure Worker (σ : Type) where
  /-- The host. -/
  host : String
  /-- What is still to be done; none if the worker died. -/
  script? : Option (Script (Except RunError Counts))
  /-- What is at the host. -/
  place : σ

namespace Worker

variable {σ : Type}

/-- The worker of a host, before anything is done. -/
def start (settings : Settings) (tasks : List Task) (h : FleetHost σ) : Worker σ :=
  ⟨h.name, some ((Runner.mk h.user settings).provision tasks), h.place⟩

/-- The worker after one turn. -/
def turn (handler : PlaceHandler σ) (w : Worker σ) : Worker σ :=
  match w.script? with
  | none => w
  | some script =>
    let (script?, place) := (script.step handler).run w.place
    { w with script?, place }

/-- The outcome of a worker that does all that is left, and what is then at the host. -/
def finish (handler : PlaceHandler σ) (w : Worker σ) : Option (Except RunError Counts) × σ :=
  match w.script? with
  | none => (none, w.place)
  | some script => (script.runWith handler).run w.place

/-- The report of a worker that does all that is left, its death included, and what is then at the
host. -/
def report (handler : PlaceHandler σ) (w : Worker σ) : HostReport × σ :=
  let (outcome?, place) := w.finish handler
  (.ofOutcome w.host outcome?, place)

end Worker

/-- What comes of a fleet. -/
structure FleetOutcome (σ : Type) where
  /-- The reports; none if nobody was left to give them. -/
  report? : Option FleetReport
  /-- What is then at the hosts. -/
  places : List σ

namespace Worker

variable {σ : Type}

/-- Has all work done at the same time.  Workers get turns, by the numbers of their hosts, until the
turns are used up; then each does what is left. -/
def atOnce (handler : PlaceHandler σ) (turns : List Nat) (ws : List (Worker σ)) : FleetOutcome σ :=
  let reports := (turns.foldl (fun ws i => ws.modify i (turn handler)) ws).map (report handler)
  ⟨some (reports.map Prod.fst), reports.map Prod.snd⟩

/-- Has the work on one host done after that on another.  No other worker waits for the one at work,
so that all is over when it dies. -/
def inTurn (handler : PlaceHandler σ) : List (Worker σ) → FleetOutcome σ
  | [] => ⟨some [], []⟩
  | w :: ws =>
    match w.finish handler with
    | (none, place) => ⟨none, place :: ws.map Worker.place⟩
    | (some outcome, place) =>
      let rest := inTurn handler ws
      ⟨rest.report?.map (HostReport.ofOutcome w.host (some outcome) :: ·), place :: rest.places⟩

end Worker

/-- Whether hosts are provisioned at the same time: if that is wanted, and there are several. -/
def Settings.atOnce {α : Type} (settings : Settings) (hosts : List α) : Bool :=
  settings.parallelHosts && 2 ≤ hosts.length

/-- Provisions hosts, at the same time or one after another. -/
def provisionFleet {σ : Type} (handler : PlaceHandler σ) (settings : Settings) (tasks : List Task)
    (turns : List Nat) (hosts : List (FleetHost σ)) : FleetOutcome σ :=
  let workers := hosts.map (Worker.start settings tasks)
  if settings.atOnce hosts then Worker.atOnce handler turns workers
  else Worker.inTurn handler workers

end Provisioning

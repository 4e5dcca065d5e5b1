/-!
# Events of a run

Everything that happens while tasks are made and hosts provisioned is told as an event.  The
category of an event is a dotted name; whoever listens does so by the beginning of categories.
-/

namespace Provisioning

/-- Where a line of output comes from. -/
inductive Origin where
  | stdout
  | stderr
deriving DecidableEq, Repr

/-- The word for an origin. -/
def Origin.word : Origin → String
  | stdout => "stdout"
  | stderr => "stderr"

/-- What has happened. -/
inductive Happening where
  /-- A task has been made. -/
  | taskCompiled (task : String) (commands : Nat)
  /-- Work on a host begins. -/
  | hostStarted (tasks : Nat) (dryRun : Bool)
  /-- Work on a host is over. -/
  | hostFinished (executed cached invalidated : Nat) (error? : Option String)
  /-- A command is skipped. -/
  | commandCached (task : String) (index : Nat) (sum label : String)
  /-- A command is about to run. -/
  | commandStarted (task : String) (index : Nat) (sum label : String)
  /-- A command is over; the error tells why it could not be run or waited for. -/
  | commandFinished (task : String) (index : Nat) (sum : String) (exitCode : Int) (millis : Nat)
    (error? : Option String)
  /-- A command has printed a line. -/
  | commandPrinted (task sum : String) (origin : Origin) (line : String)
  /-- Markers have been deleted. -/
  | cacheInvalidated (task : String) (sums : List String)
  /-- The log of a command could not be written. -/
  | logFailed (task sum error : String)
deriving DecidableEq, Repr

/-- The dotted name that listeners choose by. -/
def Happening.category : Happening → String
  | taskCompiled .. => "task.compiled"
  | hostStarted .. => "host.started"
  | hostFinished .. => "host.finished"
  | commandCached .. => "command.cached"
  | commandStarted .. => "command.exec_start"
  | commandFinished .. => "command.exec_finished"
  | commandPrinted .. => "command.stream"
  | cacheInvalidated .. => "cache.invalidated"
  | logFailed .. => "log.relay_failed"

/-- Something that has happened, when and where. -/
structure Event where
  /-- The time. -/
  time : String
  /-- The host, if it concerns only one. -/
  host? : Option String
  /-- What has happened. -/
  what : Happening
deriving DecidableEq, Repr

/-- The dotted name that listeners choose by. -/
def Event.category (e : Event) : String := e.what.category

end Provisioning

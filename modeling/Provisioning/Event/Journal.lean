import Provisioning.Event.Json
import Provisioning.Path

/-!
# The journal

Every event is added as one line to the journal of its host, `events.jsonl` in a directory of the
host's name; events of no host go to the journal `_fleet`.
-/

namespace Provisioning

namespace Journal

/-- The name under which events of no host are kept. -/
def fleetName : String := "_fleet"

/-- The path of the journal of a host. -/
def path (stateDir host : String) : String :=
  Path.join (Path.join stateDir host) "events.jsonl"

/-- The path of the journal that an event goes to. -/
def pathOf (stateDir : String) (e : Event) : String :=
  path stateDir (e.host?.getD fleetName)

/-- The line of an event, with the line feed. -/
def line (e : Event) : String := e.render ++ "\n"

end Journal

end Provisioning

import Provisioning.Event.Basic
import Provisioning.Json.Reader

/-!
# Events as JSON

An event is one flat object: time, host, the tag of what has happened, then its details in a
fixed order; what is absent is left out.  `Event.ofText?` reads it back.  Names that are not
asked for are passed over, but none that is asked for may come twice.
-/

namespace Provisioning

open Json (Value)

/-! ### Writing -/

/-- The tag by which the kinds of happening are told apart. -/
def Happening.tag : Happening → String
  | taskCompiled .. => "task_compiled"
  | hostStarted .. => "host_started"
  | hostFinished .. => "host_finished"
  | commandCached .. => "command_cached"
  | commandStarted .. => "command_exec_start"
  | commandFinished .. => "command_exec_finished"
  | commandPrinted .. => "command_stream"
  | cacheInvalidated .. => "cache_invalidated"
  | logFailed .. => "log_relay_failed"

/-- A count as JSON. -/
def countValue (n : Nat) : Value := .int n

/-- An entry that is left out if there is nothing in it. -/
def optionalEntry (name : String) (s? : Option String) : List (String × Value) :=
  (s?.map fun s => (name, Value.str s)).toList

/-- The details of a happening, in order. -/
def Happening.details : Happening → List (String × Value)
  | taskCompiled task commands => [("task", .str task), ("commands", countValue commands)]
  | hostStarted tasks dryRun => [("tasks", countValue tasks), ("dry_run", .bool dryRun)]
  | hostFinished executed cached invalidated error? =>
    [("executed", countValue executed), ("cached", countValue cached),
      ("invalidated", countValue invalidated)] ++ optionalEntry "error" error?
  | commandCached task index sum label | commandStarted task index sum label =>
    [("task", .str task), ("index", countValue index), ("checksum", .str sum),
      ("logging", .str label)]
  | commandFinished task index sum exitCode millis error? =>
    [("task", .str task), ("index", countValue index), ("checksum", .str sum),
      ("exit_code", .int exitCode), ("duration_ms", countValue millis)]
      ++ optionalEntry "error" error?
  | commandPrinted task sum origin line =>
    [("task", .str task), ("checksum", .str sum), ("stream", .str origin.word),
      ("line", .str line)]
  | cacheInvalidated task sums => [("task", .str task), ("checksums", .arr (sums.map .str))]
  | logFailed task sum error =>
    [("task", .str task), ("checksum", .str sum), ("error", .str error)]

/-- The entries of an event, in order. -/
def Event.entries (e : Event) : List (String × Value) :=
  ("ts", .str e.time) ::
    (optionalEntry "host" e.host? ++ ("event", .str e.what.tag) :: e.what.details)

/-- An event as JSON. -/
def Event.toJson (e : Event) : Value := .obj e.entries

/-- An event as one line of JSON. -/
def Event.render (e : Event) : String := e.toJson.render

/-! ### Reading -/

/-- The names of the details of a kind of happening. -/
def detailNames (tag : String) : List String :=
  match tag with
  | "task_compiled" => ["task", "commands"]
  | "host_started" => ["tasks", "dry_run"]
  | "host_finished" => ["executed", "cached", "invalidated", "error"]
  | "command_cached" | "command_exec_start" => ["task", "index", "checksum", "logging"]
  | "command_exec_finished" =>
    ["task", "index", "checksum", "exit_code", "duration_ms", "error"]
  | "command_stream" => ["task", "checksum", "stream", "line"]
  | "cache_invalidated" => ["task", "checksums"]
  | _ => ["task", "checksum", "error"]

/-- The tags, in the order in which they may also be given as numbers. -/
def tags : List String :=
  ["task_compiled", "host_started", "host_finished", "command_cached", "command_exec_start",
    "command_exec_finished", "command_stream", "cache_invalidated", "log_relay_failed"]

/-- Whether each of some names stands in at most one entry. -/
def onceEach (names : List String) (es : List (String × Value)) : Bool :=
  names.all fun n => (es.filter (·.1 == n)).length ≤ 1

section Details

variable (es : List (String × Value))

/-- The text under a name. -/
def textAt? (name : String) : Option String :=
  match es.lookup name with
  | some (.str s) => some s
  | _ => none

/-- The text under a name if there is one; it may be lacking or null. -/
def optionalTextAt? (name : String) : Option (Option String) :=
  match es.lookup name with
  | none | some .null => some none
  | some (.str s) => some (some s)
  | _ => none

/-- The whole number under a name, from `least` on and below `bound`. -/
def intAt? (least bound : Int) (name : String) : Option Int :=
  match es.lookup name with
  | some (.int n) => if least ≤ n && n < bound then some n else none
  | _ => none

/-- The count of 64 bits under a name. -/
def countAt? (name : String) : Option Nat :=
  (intAt? es 0 (Int.pow 2 64) name).map Int.toNat

/-- The truth value under a name. -/
def boolAt? (name : String) : Option Bool :=
  match es.lookup name with
  | some (.bool b) => some b
  | _ => none

/-- The text that a value is. -/
def text? : Value → Option String
  | .str s => some s
  | _ => none

/-- The texts of the array under a name. -/
def textsAt? (name : String) : Option (List String) :=
  match es.lookup name with
  | some (.arr vs) => vs.mapM text?
  | _ => none

/-- The origin of a word. -/
def Origin.ofWord? (w : String) : Option Origin :=
  if w == "stdout" then some .stdout else if w == "stderr" then some .stderr else none

/-- The origin under a name: its word, or an object with that one name and nothing under it. -/
def originAt? (name : String) : Option Origin :=
  match es.lookup name with
  | some (.str w) | some (.obj [(w, .null)]) | some (.obj [(w, .obj [])]) => Origin.ofWord? w
  | _ => none

/-- The tag under a name, as a word or as a number. -/
def tagAt? (name : String) : Option String :=
  match es.lookup name with
  | some (.str t) => if t ∈ tags then some t else none
  | some (.int n) => if 0 ≤ n then tags[n.toNat]? else none
  | _ => none

/-- The happening with a tag and details. -/
def Happening.ofDetails? (tag : String) : Option Happening :=
  match tag with
  | "task_compiled" => do return .taskCompiled (← textAt? es "task") (← countAt? es "commands")
  | "host_started" => do return .hostStarted (← countAt? es "tasks") (← boolAt? es "dry_run")
  | "host_finished" => do
    return .hostFinished (← countAt? es "executed") (← countAt? es "cached")
      (← countAt? es "invalidated") (← optionalTextAt? es "error")
  | "command_cached" => do
    return .commandCached (← textAt? es "task") (← countAt? es "index") (← textAt? es "checksum")
      (← textAt? es "logging")
  | "command_exec_start" => do
    return .commandStarted (← textAt? es "task") (← countAt? es "index") (← textAt? es "checksum")
      (← textAt? es "logging")
  | "command_exec_finished" => do
    return .commandFinished (← textAt? es "task") (← countAt? es "index") (← textAt? es "checksum")
      (← intAt? es (-Int.pow 2 31) (Int.pow 2 31) "exit_code") (← countAt? es "duration_ms")
      (← optionalTextAt? es "error")
  | "command_stream" => do
    return .commandPrinted (← textAt? es "task") (← textAt? es "checksum")
      (← originAt? es "stream") (← textAt? es "line")
  | "cache_invalidated" => do
    return .cacheInvalidated (← textAt? es "task") (← textsAt? es "checksums")
  | "log_relay_failed" => do
    return .logFailed (← textAt? es "task") (← textAt? es "checksum") (← textAt? es "error")
  | _ => none

end Details

/-- The event that a JSON value is. -/
def Event.ofJson? : Value → Option Event
  | .obj es => do
    let tag ← tagAt? es "event"
    if onceEach ("ts" :: "host" :: "event" :: detailNames tag) es then
      return ⟨← textAt? es "ts", ← optionalTextAt? es "host", ← Happening.ofDetails? es tag⟩
    else none
  | _ => none

/-- The event that a JSON text says. -/
def Event.ofText? (s : String) : Option Event :=
  (Value.ofText? s).bind Event.ofJson?

end Provisioning

import Provisioning.Config.Basic
import Provisioning.Json.Value

/-!
# Machines as JSON

A machine may also be given as a JSON object, or as an array of its fields in order.
-/

namespace Provisioning

namespace Machine

open Json (Value)

/-- The names of the fields, in order. -/
def fieldNames : List String :=
  ["hostname", "addr", "user", "port", "ssh_key", "control_path"]

/-- The fields of a machine by name. -/
def jsonFields : Value → Option (List (String × Value))
  | .obj es => some es
  | .arr vs => if vs.length ≤ fieldNames.length then some (fieldNames.zip vs) else none
  | _ => none

/-- A text that must be there. -/
def requiredText (es : List (String × Value)) (name : String) : Option String :=
  match es.lookup name with
  | some (.str s) => some s
  | _ => none

/-- A text that may be lacking or null. -/
def optionalText (es : List (String × Value)) (name : String) : Option (Option String) :=
  match es.lookup name with
  | none | some .null => some none
  | some (.str s) => some (some s)
  | _ => none

/-- The port, 22 if it is lacking. -/
def portOf (es : List (String × Value)) : Option UInt16 :=
  match es.lookup "port" with
  | none => some 22
  | some (.int n) => if 0 ≤ n && n < Int.pow 2 16 then some (UInt16.ofNat n.toNat) else none
  | _ => none

/-- The machine that a JSON value is. -/
def ofJson? (v : Value) : Option Machine := do
  let es ← jsonFields v
  return {
    hostname := ← requiredText es "hostname"
    addr := ← requiredText es "addr"
    user := ← if (es.lookup "user").isNone then some "root" else requiredText es "user"
    port := ← portOf es
    sshKey? := ← optionalText es "ssh_key"
    controlPath? := ← optionalText es "control_path" }

end Machine

end Provisioning

import Provisioning.Cache.Inventory
import Provisioning.Host.Script

/-!
# Why a run fails
-/

namespace Provisioning

/-- Why the cache of a host is not known. -/
inductive InventoryError where
  /-- The listing shows something that cannot be a marker. -/
  | fault (f : Inventory.Fault)
  /-- The listing fails. -/
  | listing (exitCode : Int) (stderr : String)
  /-- The listing cannot be run. -/
  | transport (e : TransportError)
deriving DecidableEq, Repr

/-- What is said of a cache that is not known. -/
def InventoryError.message : InventoryError → String
  | fault f => f.message
  | listing exitCode stderr =>
    "cache listing failed with exit code " ++ toString exitCode ++ ": " ++ stderr
  | transport e => e.message

/-- Why the work on a host ends early. -/
inductive RunError where
  /-- The cache is not known. -/
  | inventory (e : InventoryError)
  /-- A script cannot be run or waited for. -/
  | transport (e : TransportError)
  /-- The host cannot be prepared. -/
  | preparation (exitCode : Int) (stderr : String)
  /-- A piece of bookkeeping fails on the host. -/
  | bookkeeping (task action : String) (exitCode : Int) (stderr : String)
  /-- A command of a task fails. -/
  | command (task : String) (index : Nat) (sum : String) (exitCode : Int)
deriving DecidableEq, Repr

/-- What is said of work that ends early. -/
def RunError.message : RunError → String
  | inventory e => e.message
  | transport e => e.message
  | preparation exitCode stderr =>
    "host preparation failed (exit code " ++ toString exitCode ++ "): " ++ stderr
  | bookkeeping task action exitCode stderr =>
    action ++ " for task '" ++ task ++ "' failed (exit code " ++ toString exitCode ++ "): "
      ++ stderr
  | command task index _ exitCode =>
    "command " ++ toString index ++ " of task '" ++ task ++ "' failed with exit code "
      ++ toString exitCode

end Provisioning

import Provisioning.Config.Basic
import Provisioning.Run.Error

/-!
# Preparing a host

Bookkeeping on a host is done by whoever logs in, so that user has to be in the group that owns
the cache.  Where the group is missing one script makes it, the root of the cache and the
membership; then open sessions are closed, because a membership shows only after a fresh login.
-/

namespace Provisioning

/-- Whether a group is among the names that a host lists. -/
def hasGroup (ids group : String) : Bool :=
  (Text.words ids.toList).any (· == group.toList)

/-- The script that makes the group, the root of the cache and the membership. -/
def setupScript (settings : Settings) (user : String) : String :=
  let group := Shell.quote settings.cacheGroup
  let root := Shell.quote settings.cacheRoot
  "getent group " ++ group ++ " >/dev/null || groupadd " ++ group ++ "; "
    ++ "mkdir -p " ++ root ++ "; chgrp " ++ group ++ " " ++ root ++ "; chmod 2775 " ++ root ++ "; "
    ++ "usermod -a -G " ++ group ++ " " ++ Shell.quote user

/-- A script run by a shell that stops at the first failure, with raised privileges if wanted. -/
def strictShell (elevate : Bool) (script : String) : String :=
  (if elevate then "sudo -n -H " else "") ++ "bash -e -c " ++ Shell.quote script

/-- Makes sure that the user who logs in can write the cache.  Tells whether anything had to be
done. -/
def prepare (settings : Settings) (user : String) : Talk (Except RunError Bool) := do
  match ← capture "id -nG" with
  | .error e => return .error (.transport e)
  | .ok ids =>
    if !ids.succeeded then return .error (.preparation ids.exitCode ids.complaint)
    else if hasGroup ids.stdout settings.cacheGroup then return .ok false
    else
      match ← capture (strictShell (settings.elevation.applies user)
          (setupScript settings user)) with
      | .error e => return .error (.transport e)
      | .ok out =>
        if !out.succeeded then return .error (.preparation out.exitCode out.complaint)
        else .reset fun
          | .error e => .done (.error (.transport e))
          | .ok () => .done (.ok true)

/-- Lists the cache of a host. -/
def takeInventory (root : String) : Talk (Except InventoryError Inventory) := do
  match ← capture (Cache.listingScript root) with
  | .error e => return .error (.transport e)
  | .ok out =>
    if out.succeeded then return (Inventory.ofListing root out.stdout).mapError .fault
    else return .error (.listing out.exitCode out.complaint)

end Provisioning

import Provisioning.Shell.Word
import Provisioning.Text.Blank

/-!
# Where the cache keeps what

Every task has a directory of its own below the root of the cache.  It holds, per command and
under the command's checksum, a marker of success or of failure and a log.
-/

namespace Provisioning

namespace Cache

/-- A root without the slashes at its end. -/
def bareRoot (root : String) : List Char :=
  Text.dropWhileEnd (· == '/') root.toList

/-- The directory of a task. -/
def taskDir (root task : String) : String :=
  String.ofList (bareRoot root ++ '/' :: task.toList)

/-- The path of a marker of success. -/
def donePath (dir sum : String) : String := dir ++ "/" ++ sum ++ ".done"

/-- The path of a marker of failure. -/
def failedPath (dir sum : String) : String := dir ++ "/" ++ sum ++ ".failed"

/-- The path of a log. -/
def logPath (dir sum : String) : String := dir ++ "/" ++ sum ++ ".log"

/-- The path of a log while it is written. -/
def partialLogPath (dir sum : String) : String := dir ++ "/." ++ sum ++ ".log.tmp"

/-- The script that prints the paths of all markers of success, one a line, and nothing if there
is no cache yet. -/
def listingScript (root : String) : String :=
  let root := Shell.quote root
  "if [ -d " ++ root ++ " ]; then find " ++ root ++ " -type f -name '*.done'; fi"

end Cache

end Provisioning

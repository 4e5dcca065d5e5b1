import Provisioning.Event.Journal
import Provisioning.Rehearsal.Files

/-!
# Journals in a file tree
-/

namespace Provisioning

namespace Rehearsal

namespace Files

/-- Makes the directory that a path lies in, if it names one; tells whether that worked out. -/
def makeParent (fs : Files) (cwd : Place) (path : String) : Files × Bool :=
  let dir := (Path.parent? path).getD ""
  if dir.isEmpty then (fs, true)
  else
    match fs.makePath cwd dir with
    | (fs, .error _) => (fs, false)
    | (fs, .ok _) => (fs, true)

/-- Adds an event to its journal below a directory; tells whether that worked out.  It does once the
journal is ready, since the line is never refused. -/
def journal (fs : Files) (cwd : Place) (stateDir : String) (e : Event) : Files × Bool :=
  let path := Journal.pathOf stateDir e
  let (fs, made) := fs.makeParent cwd path
  if made then
    match fs.ready cwd path false with
    | .error _ => (fs, false)
    | .ok (at_, fs) => (fs.append at_ (textBytes (Journal.line e)), true)
  else (fs, false)

/-- Adds events to their journals; those that cannot be added are left out.  Tells how many were
added. -/
def journalAll (fs : Files) (cwd : Place) (stateDir : String) (events : List Event) :
    Files × Nat :=
  events.foldl (fun (fs, n) e =>
    let (fs, added) := fs.journal cwd stateDir e
    (fs, if added then n + 1 else n)) (fs, 0)

end Files

end Rehearsal

end Provisioning

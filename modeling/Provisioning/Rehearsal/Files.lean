import Provisioning.Text.Blank
import Provisioning.Text.Search
import Provisioning.Text.Utf8

/-!
# Files in memory

A file tree maps places to files and directories.  A path is looked up from a working directory,
name by name, as a system does: all names but the last must lead through directories.  There is room
for everything, so what is written to a file that is ready for it is never refused.
-/

namespace Provisioning

namespace Rehearsal

/-- The names on the way from the root. -/
abbrev Place := List String

/-- What may stand at a place. -/
inductive Entry where
  | directory
  | file (bytes : List UInt8)

/-- Why files cannot be used as wanted. -/
inductive FileError where
  | notFound
  | notDirectory
  | isDirectory
  | alreadyThere
  | notEmpty
  | nameTooLong
  | invalidName
deriving DecidableEq

/-- What systems say of the reasons. -/
def FileError.message : FileError → String
  | notFound => "No such file or directory"
  | notDirectory => "Not a directory"
  | isDirectory => "Is a directory"
  | alreadyThere => "File exists"
  | notEmpty => "Directory not empty"
  | nameTooLong => "File name too long"
  | invalidName => "Invalid argument"

/-- The numbers that systems give the reasons. -/
def FileError.number : FileError → Nat
  | notFound => 2
  | notDirectory => 20
  | isDirectory => 21
  | alreadyThere => 17
  | notEmpty => 39
  | nameTooLong => 36
  | invalidName => 22

/-- A file tree.  The root is always there. -/
structure Files where
  /-- What stands where, apart from the root. -/
  entries : List (Place × Entry) := []

namespace Files

/-- What stands at a place. -/
def get? (fs : Files) (at_ : Place) : Option Entry :=
  if at_.isEmpty then some .directory else fs.entries.lookup at_

/-- Puts something at a place. -/
def put (fs : Files) (at_ : Place) (e : Entry) : Files :=
  if (fs.entries.lookup at_).isSome then
    { entries := fs.entries.map fun (p, old) => if p == at_ then (p, e) else (p, old) }
  else { entries := fs.entries ++ [(at_, e)] }

/-- Takes away what stands at a place, and all below it. -/
def prune (fs : Files) (at_ : Place) : Files :=
  { entries := fs.entries.filter fun (p, _) => !at_.isPrefixOf p }

/-- The file that takes everything and holds nothing. -/
def sink : Place := ["dev", "null"]

/-- The places right below a place. -/
def children (fs : Files) (at_ : Place) : List Place :=
  fs.entries.filterMap fun (p, _) => if p.dropLast == at_ && !p.isEmpty then some p else none

/-- The names in a path. -/
def names (path : String) : List String :=
  ((Text.splitOn '/' path.toList).filter (!·.isEmpty)).map String.ofList

/-- What keeps a name from being that of a file. -/
def nameFault? (name : String) : Option FileError :=
  if name.toList.contains '\x00' then some .invalidName
  else if 255 < textSize name then some .nameTooLong
  else none

/-- Follows names from a place; only what comes before the last name must be there. -/
def follow (fs : Files) : Place → List String → Except FileError Place
  | at_, [] => .ok at_
  | at_, name :: rest =>
    match fs.get? at_ with
    | none => .error .notFound
    | some (.file _) => .error .notDirectory
    | some .directory =>
      if name == "." then follow fs at_ rest
      else if name == ".." then follow fs at_.dropLast rest
      else
        match nameFault? name with
        | some e => .error e
        | none => follow fs (at_ ++ [name]) rest

/-- The place that a path leads to. -/
def resolve (fs : Files) (cwd : Place) (path : String) : Except FileError Place :=
  if path.isEmpty then .error .notFound
  else
    let start := if path.toList.head? == some '/' then [] else cwd
    let last := if path.toList.getLast? == some '/' then ["."] else []
    fs.follow start (names path ++ last)

/-- What a path leads to. -/
def find (fs : Files) (cwd : Place) (path : String) : Except FileError (Place × Entry) := do
  let at_ ← fs.resolve cwd path
  match fs.get? at_ with
  | some e => return (at_, e)
  | none => throw .notFound

/-- What the file at a path holds. -/
def read (fs : Files) (cwd : Place) (path : String) : Except FileError (List UInt8) := do
  match ← fs.find cwd path with
  | (_, .file bytes) => return bytes
  | (_, .directory) => throw .isDirectory

/-- Makes a file ready for writing: it is made if it is not there, and emptied if `fresh`. -/
def ready (fs : Files) (cwd : Place) (path : String) (fresh : Bool) :
    Except FileError (Place × Files) := do
  let at_ ← fs.resolve cwd path
  match fs.get? at_ with
  | some .directory => throw .isDirectory
  | some (.file _) => return (at_, if fresh then fs.put at_ (.file []) else fs)
  | none =>
    match fs.get? at_.dropLast with
    | some .directory => return (at_, fs.put at_ (.file []))
    | some (.file _) => throw .notDirectory
    | none => throw .notFound

/-- Adds to the file at a place.  This cannot fail. -/
def append (fs : Files) (at_ : Place) (bytes : List UInt8) : Files :=
  if at_ == sink then fs
  else
    match fs.get? at_ with
    | some (.file old) => fs.put at_ (.file (old ++ bytes))
    | _ => fs

/-- Makes the directories that names lead through; where that fails, the names up to there. -/
def makeDirs (fs : Files) (at_ : Place) (done : List String) :
    List String → Files × Except (FileError × List String) Place
  | [] => (fs, .ok at_)
  | name :: rest =>
    let done := done ++ [name]
    let next := if name == "." then at_ else if name == ".." then at_.dropLast else at_ ++ [name]
    match nameFault? name with
    | some e => (fs, .error (e, done))
    | none =>
      match fs.get? next with
      | some .directory => makeDirs fs next done rest
      | some (.file _) =>
        (fs, .error (if rest.isEmpty then .alreadyThere else .notDirectory, done))
      | none => makeDirs (fs.put next .directory) next done rest

/-- Makes the directory at a path, and those above it. -/
def makePath (fs : Files) (cwd : Place) (path : String) :
    Files × Except (FileError × List String) Place :=
  if path.isEmpty then (fs, .error (.notFound, []))
  else fs.makeDirs (if path.toList.head? == some '/' then [] else cwd) [] (names path)

/-- The files below a place, as paths from there, sorted. -/
def filesBelow (fs : Files) (at_ : Place) : List (String × List UInt8) :=
  let found := fs.entries.filterMap fun (p, e) =>
    match e with
    | .file bytes =>
      if at_.isPrefixOf p then some (Text.join "/" (p.drop at_.length), bytes) else none
    | .directory => none
  found.mergeSort fun a b => a.1 ≤ b.1

end Files

end Rehearsal

end Provisioning

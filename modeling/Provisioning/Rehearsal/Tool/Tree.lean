import Provisioning.Path
import Provisioning.Rehearsal.Shell.Field
import Provisioning.Rehearsal.Tool.Stream

/-!
# Tools that work on the file tree

Each makes, moves, removes or lists files, or says something of the machine.
-/

namespace Provisioning

namespace Rehearsal

namespace Tool

open Work

/-- A path from the root to a place. -/
def placeText (at_ : Place) : String :=
  if at_.isEmpty then "/" else String.join (at_.map ("/" ++ ·))

/-- The path at which making directories failed. -/
def failedPart (path : String) (done : List String) : String :=
  (if path.toList.head? == some '/' then "/" else "") ++ Text.join "/" done

/-- Makes directories. -/
def mkdir : Tool := withOptions "mkdir" "pv" "m" [("parents", 'p')] 1 fun o => do
  if o.operands.isEmpty then misused "mkdir" 1 "missing operand"
  else
    forAll o.operands fun name => do
      let d ← get
      let failed (name : String) (e : FileError) : Work Nat :=
        fail 1 ("mkdir: cannot create directory " ++ spelledOut name ++ ": " ++ e.message)
      if o.has 'p' then
        let (fs, result) := d.files.makePath d.cwd name
        setFiles fs
        match result with
        | .ok _ => return 0
        | .error (e, done) => failed (failedPart name done) e
      else
        match d.files.resolve d.cwd name with
        | .error e => failed name e
        | .ok at_ =>
          if (d.files.get? at_).isSome then failed name .alreadyThere
          else
            setFiles (d.files.put at_ .directory)
            return 0

/-- Removes empty directories. -/
def rmdir : Tool := withOptions "rmdir" "p" "" [] 1 fun o => do
  if o.operands.isEmpty then misused "rmdir" 1 "missing operand"
  else
    forAll o.operands fun name => do
      let d ← get
      let failed (e : FileError) : Work Nat :=
        fail 1 ("rmdir: failed to remove " ++ shown name ++ ": " ++ e.message)
      match d.files.find d.cwd name with
      | .error e => failed e
      | .ok (_, .file _) => failed .notDirectory
      | .ok (at_, .directory) =>
        if !(d.files.children at_).isEmpty then failed .notEmpty
        else
          setFiles (d.files.prune at_)
          return 0

/-- Removes files, and directories if asked to. -/
def rm : Tool :=
  withOptions "rm" "rRfvd" "" [("force", 'f'), ("recursive", 'r')] 1 fun o => do
    if o.operands.isEmpty && !o.has 'f' then misused "rm" 1 "missing operand"
    else
      forAll o.operands fun name => do
        let d ← get
        let failed (e : FileError) : Work Nat :=
          fail 1 ("rm: cannot remove " ++ shown name ++ ": " ++ e.message)
        match d.files.find d.cwd name with
        | .error e =>
          if o.has 'f' && (e == .notFound || e == .notDirectory) then return 0 else failed e
        | .ok (at_, .directory) =>
          if o.has 'r' || o.has 'R' then
            setFiles (d.files.prune at_)
            return 0
          else failed .isDirectory
        | .ok (at_, .file _) =>
          setFiles (d.files.prune at_)
          return 0

/-- Where something goes: under its own name into a directory, else to the path itself. -/
def landing (d : Desk) (source target : String) : Except FileError Place :=
  match d.files.find d.cwd target with
  | .ok (at_, .directory) =>
    match (Files.names source).getLast? with
    | some name => .ok (at_ ++ [name])
    | none => .ok at_
  | .ok (at_, .file _) => .ok at_
  | .error _ => do
    let at_ ← d.files.resolve d.cwd target
    match d.files.get? at_.dropLast with
    | some .directory => return at_
    | _ => throw .notFound

/-- A tree with what stands at a place, and all below it, also at another place. -/
def copied (fs : Files) (source target : Place) : Files :=
  fs.entries.foldl (fun fs (p, e) =>
    if source.isPrefixOf p then fs.put (target ++ p.drop source.length) e else fs) fs

/-- The operands of a tool that puts things somewhere, and where. -/
def placing (tool : String) (o : Options) (work : String → String → Work Nat) : Work Nat :=
  match o.operands.reverse with
  | [] => misused tool 1 "missing file operand"
  | [a] => misused tool 1 ("missing destination file operand after " ++ shown a)
  | target :: sources => do
    let d ← get
    let isDirectory := match d.files.find d.cwd target with
      | .ok (_, .directory) => true
      | _ => false
    if 1 < sources.length && !isDirectory then
      fail 1 (tool ++ ": target " ++ shown target ++ ": No such file or directory")
    else forAll sources.reverse fun source => work source target

/-- Moves files. -/
def mv : Tool := withOptions "mv" "fnv" "" [] 1 fun o =>
  placing "mv" o fun source target => do
    let d ← get
    match d.files.find d.cwd source with
    | .error e => fail 1 ("mv: cannot stat " ++ shown source ++ ": " ++ e.message)
    | .ok (at_, _) =>
      match landing d source target with
      | .error e =>
        fail 1 ("mv: cannot move " ++ shown source ++ " to " ++ shown target ++ ": " ++ e.message)
      | .ok place =>
        if at_ == place then
          fail 1 ("mv: " ++ shown source ++ " and " ++ shown target ++ " are the same file")
        else
          setFiles ((copied (d.files.prune place) at_ place).prune at_)
          return 0

/-- Copies files, and directories if asked to. -/
def cp : Tool := withOptions "cp" "rRapfvn" "" [] 1 fun o =>
  placing "cp" o fun source target => do
    let d ← get
    match d.files.find d.cwd source with
    | .error e => fail 1 ("cp: cannot stat " ++ shown source ++ ": " ++ e.message)
    | .ok (at_, e) =>
      match e with
      | .directory =>
        if !(o.has 'r' || o.has 'R' || o.has 'a') then
          return ← fail 1 ("cp: -r not specified; omitting directory " ++ shown source)
      | .file _ => pure ()
      match landing d source target with
      | .error e =>
        fail 1 ("cp: cannot create regular file " ++ shown target ++ ": " ++ e.message)
      | .ok place =>
        if at_ == place then
          fail 1 ("cp: " ++ shown source ++ " and " ++ shown target ++ " are the same file")
        else
          setFiles (copied d.files at_ place)
          return 0

/-- Makes empty files where there are none. -/
def touch : Tool := withOptions "touch" "acm" "dt" [] 1 fun o => do
  if o.operands.isEmpty then misused "touch" 1 "missing file operand"
  else
    forAll o.operands fun name => do
      let d ← get
      match d.files.ready d.cwd name false with
      | .ok (_, fs) =>
        setFiles fs
        return 0
      | .error .isDirectory => return 0
      | .error e => fail 1 ("touch: cannot touch " ++ shown name ++ ": " ++ e.message)

/-- Changes what is not kept here, and so only asks that the files be there. -/
def adjust (tool : String) (args : List String) : Work Nat :=
  match args.filter fun a => a.toList.head? != some '-' || tool == "chmod" && a.length == 2 with
  | [] => misused tool 1 "missing operand"
  | [a] => misused tool 1 ("missing operand after " ++ shown a)
  | _ :: names =>
    forAll names fun name => do
      let d ← get
      match d.files.find d.cwd name with
      | .ok _ => return 0
      | .error e => fail 1 (tool ++ ": cannot access " ++ shown name ++ ": " ++ e.message)

/-- Lists directories. -/
def ls : Tool := withOptions "ls" "1aAdlhrtF" "" [("all", 'a')] 2 fun o => do
  let names := if o.operands.isEmpty then ["."] else o.operands
  let d ← get
  let found := names.map fun name => (name, d.files.find d.cwd name)
  let code ← forAll found fun (name, r) =>
    match r with
    | .error e => fail 2 ("ls: cannot access " ++ shown name ++ ": " ++ e.message)
    | .ok _ => return 0
  let plain := found.filterMap fun (name, r) =>
    match r with
    | .ok (_, .file _) => some name
    | .ok (_, .directory) => if o.has 'd' then some name else none
    | .error _ => none
  let directories := found.filterMap fun (name, r) =>
    match r with
    | .ok (at_, .directory) => if o.has 'd' then none else some (name, at_)
    | _ => none
  (plain.mergeSort fun a b => a ≤ b).forM sayLine
  let contents (at_ : Place) : Work Unit := do
    let all := (d.files.children at_).filterMap List.getLast?
    let visible := all.filter fun n => o.has 'a' || o.has 'A' || n.toList.head? != some '.'
    let listed := if o.has 'a' then "." :: ".." :: visible else visible
    (listed.mergeSort fun a b => a ≤ b).forM sayLine
  match directories with
  | [(_, at_)] => if names.length == 1 then contents at_ else pure ()
  | _ => pure ()
  if 1 < names.length then
    ((List.range directories.length).zip directories).forM fun (i, name, at_) => do
      sayLine ((if i == 0 && plain.isEmpty then "" else "\n") ++ name ++ ":")
      contents at_
  return code

/-- The conditions of a search: the kind of file and the pattern of its name. -/
def conditions : List String → Option String × Option String
  | "-type" :: t :: rest => (some t, (conditions rest).2)
  | "-name" :: n :: rest => ((conditions rest).1, some n)
  | _ :: rest => conditions rest
  | [] => (none, none)

/-- Prints the paths of what lies below some places and meets conditions. -/
def find : Tool := fun args => do
  let starts := args.takeWhile fun a => a.toList.head? != some '-'
  let (type?, name?) := conditions (args.drop starts.length)
  forAll (if starts.isEmpty then ["."] else starts) fun start => do
    let d ← get
    match d.files.find d.cwd start with
    | .error e => fail 1 ("find: " ++ spelledOut start ++ ": " ++ e.message)
    | .ok (at_, e) =>
      let below := d.files.entries.filter fun (p, _) => at_.isPrefixOf p && p != at_
      let met (p : Place) (e : Entry) : Bool :=
        (type?.all fun t => match e with
          | .file _ => t == "f"
          | .directory => t == "d")
          && name?.all fun n =>
            Shell.Field.fitsText (n.toList.map fun c => (c, false)) ((p.getLast?.getD "").toList)
      let path (p : Place) : String :=
        let rest := Text.join "/" (p.drop at_.length)
        if rest.isEmpty then start
        else if start.toList.getLast? == some '/' then start ++ rest
        else start ++ "/" ++ rest
      (((at_, e) :: below).filter fun (p, e) => met p e).forM fun (p, _) => sayLine (path p)
      return 0

/-- Copies its input to files and prints it. -/
def tee : Tool := withOptions "tee" "a" "" [] 1 fun o => do
  let (bytes, _) ← gather "tee" []
  sayBytes bytes
  forAll o.operands fun name => do
    let d ← get
    match d.files.ready d.cwd name (!o.has 'a') with
    | .ok (at_, fs) =>
      setFiles (fs.append at_ bytes)
      return 0
    | .error e => fail 1 ("tee: " ++ name ++ ": " ++ e.message)

/-- Prints the place that a path leads to. -/
def realpath (name : String) : Tool := withOptions name "fem" "" [] 1 fun o => do
  if o.operands.isEmpty then misused name 1 "missing operand"
  else
    forAll o.operands fun path => do
      let d ← get
      match d.files.resolve d.cwd path with
      | .ok at_ =>
        sayLine (placeText at_)
        return 0
      | .error e => fail 1 (name ++ ": " ++ path ++ ": " ++ e.message)

/-- Prints the last name of a path. -/
def basename : Tool := fun args =>
  match args with
  | [] => misused "basename" 1 "missing operand"
  | path :: rest => do
    let name := (Files.names path).getLast?.getD (if path.isEmpty then "" else "/")
    let cs := name.toList
    let bare := match rest with
      | tail :: _ => if tail == name then cs else (Text.dropTail? tail.toList cs).getD cs
      | [] => cs
    sayLine (String.ofList bare)
    return 0

/-- Prints the path of the directory that a path lies in. -/
def dirname : Tool := fun args =>
  match args with
  | [] => misused "dirname" 1 "missing operand"
  | path :: _ => do
    sayLine (match Path.parent? path with
      | none => if Path.isAbsolute path then "/" else "."
      | some dir => if dir.isEmpty then "." else dir)
    return 0

/-- Waits, which takes no time here. -/
def sleep : Tool := fun args => do
  let isNumber (s : String) : Bool :=
    let cs := match Text.splitOn '.' s.toList with
      | [a] => some a
      | [a, b] => some (a ++ b)
      | _ => none
    let unit (c : Char) : Bool := c == 's' || c == 'm' || c == 'h' || c == 'd'
    (cs.map fun cs => if cs.getLast?.any unit then cs.dropLast else cs).any fun cs =>
      !cs.isEmpty && cs.all Char.isDigit
  match args with
  | [] => misused "sleep" 1 "missing operand"
  | _ =>
    match args.find? (!isNumber ·) with
    | some bad => misused "sleep" 1 ("invalid time interval " ++ shown bad)
    | none => return 0

/-- Prints the variables that it gets. -/
def printenv : Tool := fun args => do
  let vars := (← get).environment
  if args.isEmpty then
    vars.forM fun (name, value) => sayLine (name ++ "=" ++ value)
    return 0
  else
    forAll args fun name =>
      match vars.lookup name with
      | some value => do
        sayLine value
        return 0
      | none => return 1

/-- A tool that always prints one line. -/
def fixedLine (line : String) : Tool := fun _ => do
  sayLine line
  return 0

/-- Says who runs it. -/
def whoIs : Tool := fun args => do
  let numeric := args.any fun a => a.toList.any ['u', 'g', 'G'].contains
  let named := args.any fun a => a.toList.contains 'n'
  sayLine (if named then "root" else if numeric then "0"
    else "uid=0(root) gid=0(root) groups=0(root)")
  return 0

/-- The tools that work on the file tree, by name. -/
def treeTools : List (String × Tool) :=
  [("mkdir", mkdir), ("rmdir", rmdir), ("rm", rm), ("mv", mv), ("cp", cp), ("touch", touch),
    ("chmod", adjust "chmod"), ("chown", adjust "chown"), ("chgrp", adjust "chgrp"), ("ls", ls),
    ("find", find), ("tee", tee), ("realpath", realpath "realpath"),
    ("readlink", realpath "readlink"), ("basename", basename), ("dirname", dirname),
    ("sleep", sleep), ("printenv", printenv), ("whoami", fixedLine "root"), ("id", whoIs),
    ("uname", fixedLine "Linux"),
    ("hostname", fixedLine "localhost"), ("date", fixedLine "Thu Jan  1 00:00:00 UTC 1970"),
    ("sync", fun _ => return 0)]

/-- All tools, by name. -/
def all : List (String × Tool) := streamTools ++ treeTools

end Tool

end Rehearsal

end Provisioning

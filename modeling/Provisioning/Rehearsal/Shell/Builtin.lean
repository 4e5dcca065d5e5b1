import Provisioning.Rehearsal.Shell.State

/-!
# What a shell does itself

Signals, directories, options, variables and input lines concern the shell that runs and need no
other script.
-/

namespace Provisioning

namespace Rehearsal

namespace Shell

/-- The signals by name, in the order of their numbers. -/
def signalNames : List String :=
  ["HUP", "INT", "QUIT", "ILL", "TRAP", "ABRT", "BUS", "FPE", "KILL", "USR1", "SEGV", "USR2",
    "PIPE", "ALRM", "TERM", "STKFLT", "CHLD", "CONT", "STOP", "TSTP", "TTIN", "TTOU", "URG",
    "XCPU", "XFSZ", "VTALRM", "PROF", "WINCH", "IO", "PWR", "SYS"]

/-- The number of a signal given by number or name; the end of a script counts as one. -/
def signal? (s : String) : Option Nat :=
  match Decimal.readNat s.toList with
  | some n => if n ≤ 64 then some n else none
  | none =>
    let name := String.ofList ((Text.dropLead? "SIG".toList s.toList).getD s.toList)
    if name == "EXIT" then some 0 else (signalNames.idxOf? name).map (· + 1)

/-- Whether a process that gets a signal dies of it unless it takes care. -/
def isDeadly (signal : Nat) : Bool := !([0, 17, 18, 19, 20, 21, 22, 23, 28].contains signal)

/-- Whether a process cannot take care of a signal. -/
def isFinal (signal : Nat) : Bool := signal == 9 || signal == 19

/-- Sets what is run on some signals. -/
def setTraps (args : List String) : M Unit := do
  let (script?, names) := match args with
    | "-" :: names => (none, names)
    | [name] => (none, [name])
    | script :: names => (some script, names)
    | [] => (none, [])
  let signals := names.filterMap signal?
  modifyEnv fun e =>
    let others := e.traps.filter fun (signal, _) => !signals.contains signal
    { e with traps := (script?.toList.flatMap fun s => signals.map (·, s)) ++ others }
  setStatus 0

/-- What a signal does to a shell that may have a script for it. -/
def receive (signal : Nat) : M Unit := do
  let e ← env
  match if isFinal signal then none else e.traps.lookup signal with
  | some script =>
    if !script.isEmpty then modifyEnv fun e => { e with due := e.due ++ [script] }
  | none => if isDeadly signal then throw (.killed signal)

/-- Sends a signal to processes. -/
def kill (io : Streams) (args : List String) : M Unit := do
  let usage : M Unit := do
    write io.err (textBytes ("kill: usage: kill [-s sigspec | -n signum | -sigspec] pid | jobspec"
      ++ " ... or kill -l [sigspec]\n"))
    setStatus 2
  let send (name : String) (pids : List String) : M Unit := do
    match signal? name with
    | none =>
      complain io ("kill: " ++ name ++ ": invalid signal specification")
      setStatus 1
    | some signal =>
      if pids.isEmpty then usage
      else
        let e ← env
        setStatus 0
        pids.forM fun pid => do
          if pid == toString e.pid || pid == "0" then
            if signal != 0 then receive signal
          else if (Decimal.readInt pid.toList).isSome then
            complain io ("kill: (" ++ pid ++ ") - No such process")
            setStatus 1
          else
            complain io ("kill: " ++ pid ++ ": arguments must be process or job IDs")
            setStatus 1
  match args with
  | [] => usage
  | "-s" :: name :: pids | "-n" :: name :: pids => send name pids
  | "--" :: pids => send "TERM" pids
  | arg :: pids =>
    match arg.toList with
    | '-' :: name => send (String.ofList name) pids
    | _ => send "TERM" args

/-- Goes to a directory. -/
def changeDirectory (io : Streams) (args : List String) : M Unit := do
  let e ← env
  let target := match args with
    | [] => (e.value? "HOME").getD "/"
    | "-" :: _ => (e.value? "OLDPWD").getD "/"
    | "--" :: path :: _ | path :: _ => path
  let failed (reason : FileError) : M Unit := do
    complain io ("cd: " ++ target ++ ": " ++ reason.message)
    setStatus 1
  if args.head? == some "-" then write io.out (textBytes (target ++ "\n"))
  match (← get).files.find e.cwd target with
  | .error reason => failed reason
  | .ok (_, .file _) => failed .notDirectory
  | .ok (at_, .directory) =>
    assign "OLDPWD" (Tool.placeText e.cwd)
    modifyEnv fun e => { e with cwd := at_ }
    setStatus 0

/-- Turns an option on or off, if there is one of that letter. -/
def setLetter (on : Bool) (c : Char) : M Unit :=
  match c with
  | 'e' => modifyEnv fun e => { e with strict := on }
  | 'u' => modifyEnv fun e => { e with careful := on }
  | _ => pure ()

/-- Turns an option on, if there is one of that name. -/
def setNamed (name : String) : M Unit :=
  match name with
  | "errexit" => setLetter true 'e'
  | "nounset" => setLetter true 'u'
  | "pipefail" => modifyEnv fun e => { e with pipeFails := true }
  | _ => pure ()

/-- Sets options or the arguments.  `byName` tells whether a name of an option comes next. -/
def setOptions : (byName : Bool) → List String → M Unit
  | _, [] => setStatus 0
  | true, name :: rest => do
    setNamed name
    setOptions false rest
  | false, arg :: rest => do
    match arg.toList with
    | ['-', '-'] =>
      modifyEnv fun e => { e with args := rest }
      setStatus 0
    | '-' :: letters =>
      letters.forM (setLetter true)
      setOptions (letters.contains 'o') rest
    | '+' :: letters =>
      letters.forM (setLetter false)
      setOptions false rest
    | _ =>
      modifyEnv fun e => { e with args := arg :: rest }
      setStatus 0

/-- Whether a text is the name of a variable. -/
def isName (s : String) : Bool := s.toList.head?.any beginsName && s.toList.all inName

/-- Declares variables, each with a value or not; programs get them if wanted. -/
def declare (io : Streams) (tool : String) (exporting : Bool) (args : List String) : M Unit := do
  setStatus 0
  (args.filter fun a => a.toList.head? != some '-').forM fun a => do
    let (name, value?) := match Text.cut ['='] a.toList with
      | some (name, value) => (String.ofList name, some (String.ofList value))
      | none => (a, none)
    if isName name then
      let e ← env
      if tool == "local" then
        modifyEnv fun e => { e with locals := (name, e.vars.lookup name) :: e.locals }
        if value?.isNone then unassign name
      if e.calls == 0 && tool == "local" then
        complain io "local: can only be used in a function"
        setStatus 1
      else if let some value := value? then assign name value
      if exporting then exportVar name
    else
      complain io (tool ++ ": \x60" ++ a ++ "': not a valid identifier")
      setStatus 1

/-- Gives some variables the words of a line, the last one all that is left. -/
def assignWords : List String → List Char → M Unit
  | [], _ => pure ()
  | [name], cs => assign name (String.ofList (Text.dropWhileEnd (· == ' ') cs))
  | name :: names, cs => do
    let isGap (c : Char) : Bool := c == ' ' || c == '\t'
    assign name (String.ofList (cs.takeWhile (!isGap ·)))
    assignWords names ((cs.dropWhile (!isGap ·)).dropWhile isGap)

/-- Reads a line into variables; fails at the end of the input. -/
def readLine (io : Streams) (args : List String) : M Unit := do
  let (bytes, complete) ← takeLine io.input
  let raw := args.contains "-r"
  let text := Utf8.decodeChars bytes
  let text := if raw then text else text.filter (· != '\\')
  let names := args.filter fun a => a.toList.head? != some '-'
  if names.isEmpty then assign "REPLY" (String.ofList text)
  else assignWords names (text.dropWhile fun c => c == ' ' || c == '\t')
  setStatus (if complete then 0 else 1)

/-- The number of levels that an argument asks for. -/
def levels (args : List String) : Nat :=
  max 1 ((args.head?.bind fun a => Decimal.readNat a.toList).getD 1)

end Shell

end Rehearsal

end Provisioning

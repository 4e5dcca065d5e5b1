import Provisioning.Rehearsal.Shell.Builtin
import Provisioning.Rehearsal.Shell.Value

/-!
# Running shell scripts

Scripts run by the rules of a POSIX shell with the usual additions: words are expanded, streams
redirected, pipelines run one command after another, and under `-e` the first failure that nobody
looks at ends the script.  Fuel bounds the depth of it all; a script that uses it up is killed.
-/

namespace Provisioning

namespace Rehearsal

namespace Shell

/-! ### The shape of scripts and calls -/

/-- Whether a test holds whose words are fields: the right side of an equation is a pattern. -/
def checkedOne (files : Files) (e : Env) (fs : List Field) : Option Bool :=
  match fs with
  | [a, op, b] =>
    let text := a.map Prod.fst
    match op.text with
    | "=" | "==" => some (b.fitsText text)
    | "!=" => some (!b.fitsText text)
    | "=~" => some (Text.contains (b.map Prod.fst) text)
    | _ => plain
  | _ => plain
where
  /-- The test as one whose words mean themselves. -/
  plain : Option Bool :=
    (Tool.holds { files, cwd := e.cwd, environment := e.vars } (fs.length + 2)
      (fs.map Field.text)).toOption

/-- Whether tests hold that are joined by `&&` and `||` or turned around by `!`. -/
def checked (files : Files) (e : Env) (fs : List Field) : Option Bool := do
  let oneOf (fs : List Field) : Option Bool :=
    match fs with
    | sign :: rest =>
      if sign.text == "!" then (checkedOne files e rest).map (!·) else checkedOne files e fs
    | [] => none
  let every (fs : List Field) : Option Bool := do
    return ((← (fs.splitOnP fun f => f.text == "&&").mapM oneOf)).all id
  return (← (fs.splitOnP fun f => f.text == "||").mapM every).any id

/-- Whether a script is but one simple command. -/
def isSingle : List (List Chain) → Bool
  | [[.mk (.mk false [.simple ..]) [] false]] => true
  | _ => false

/-- Whether the failure of a pipeline is its own, and not that of a list in it. -/
def failsItself : List Command → Bool
  | [.simple ..] | [.subshell ..] => true
  | [_] => false
  | _ => true

/-- The options of a shell, and its other arguments. -/
def shellOptions : List String → List Char × List String
  | [] => ([], [])
  | arg :: rest =>
    match arg.toList with
    | ['-', '-'] | ['-'] => ([], rest)
    | '-' :: '-' :: _ => shellOptions rest
    | '-' :: letters =>
      let (more, rest) := shellOptions rest
      (letters ++ more, rest)
    | _ => ([], arg :: rest)

/-- The directories in which programs lie. -/
def programPlaces : List String := ["/bin", "/usr/bin", "/usr/local/bin", "/sbin", "/usr/sbin"]

/-- The name of a program that may be given with its directory. -/
def programName (name : String) : String :=
  match Path.parent? name with
  | some dir =>
    if programPlaces.contains dir then ((Files.names name).getLast?).getD name else name
  | none => name

/-- The names of what a shell does itself. -/
def builtins : List String :=
  [":", "true", "false", "exit", "cd", "pwd", "export", "unset", "set", "shift", "read", "echo",
    "printf", "test", "[", "kill", "break", "continue", "return", "eval", "exec", ".",
    "source", "command", "type", "wait", "umask", "local", "declare", "readonly", "typeset",
    "trap", "shopt", "ulimit", "hash", "builtin", "let", "jobs"]

/-- Whether there is a program of a name. -/
def isProgram (name : String) : Bool :=
  ["bash", "sh", "env", "timeout", "which", "true", "false", "echo", "printf", "test", "[", "kill",
    "pwd"].contains name || (Tool.all.lookup name).isSome

/-! ### Scripts -/

mutual

/-- The value that stands for a variable between braces or without them. -/
def valueAtoms (fuel : Nat) (io : Streams) (inner : String) (quoted : Bool) : M (List Atom) := do
  match fuel with
  | 0 => throw .spent
  | fuel + 1 =>
    let e ← env
    match inner.toList with
    | '#' :: c :: cs =>
      let name := String.ofList (c :: cs)
      let n :=
        if name == "@" || name == "*" then e.args.length else ((e.value? name).getD "").length
      return putInto quoted (toString n).toList
    | ['@'] => return putArgs quoted false e.args
    | ['*'] => return putArgs quoted true e.args
    | _ =>
      let (nameChars, edit) := splitInner inner.toList
      let name := String.ofList nameChars
      let value? := e.value? name
      let filled := value?.any (!·.isEmpty)
      let lacking : Leave := .exit (if e.strict then 1 else 127)
      let other (w : List Char) : M (List Char) := do
        return (wholeOf (← atoms fuel io (expandable w))).map Prod.fst
      let given : M (List Atom) := return putInto quoted (value?.getD "").toList
      let replaced (w : List Char) : M (List Atom) := do
        if quoted then return putInto quoted (← other w)
        else
          return (← atoms fuel io (looseWord (w.length + 1) w)).map fun
            | .char c quoted _ => .char c quoted true
            | a => a
      match edit with
      | ':' :: '-' :: w => if filled then given else replaced w
      | '-' :: w => if value?.isSome then given else replaced w
      | ':' :: '+' :: w => if filled then replaced w else return []
      | '+' :: w => if value?.isSome then replaced w else return []
      | ':' :: '=' :: w =>
        if filled then given
        else
          let text ← other w
          assign name (String.ofList text)
          return putInto quoted text
      | ':' :: '?' :: w =>
        if filled then given
        else
          let reason ← other w
          complain io (name ++ ": " ++ (if w.isEmpty then "parameter null or not set"
            else String.ofList reason))
          throw lacking
      | '=' :: w =>
        if value?.isSome then given
        else
          let text ← other w
          assign name (String.ofList text)
          return putInto quoted text
      | '?' :: w =>
        if value?.isSome then given
        else
          let reason ← other w
          complain io (name ++ ": " ++ (if w.isEmpty then "parameter not set"
            else String.ofList reason))
          throw lacking
      | _ =>
        match value? with
        | some value => return putInto quoted (edited value.toList edit)
        | none =>
          if e.careful then
            complain io (name ++ ": unbound variable")
            throw lacking
          else return []

/-- What a word consists of once its parts are known. -/
def atoms (fuel : Nat) (io : Streams) (w : Word) : M (List Atom) := do
  match fuel, w with
  | 0, _ => throw .spent
  | _, [] => return []
  | fuel + 1, p :: w =>
    let first ← match p with
      | .text cs quoted =>
        pure ((if quoted then [.quote] else []) ++ cs.map fun c => Atom.char c quoted false)
      | .var inner quoted => valueAtoms fuel io inner quoted
      | .output script quoted => do
        let text ← output fuel io script
        pure (putInto quoted text)
      | .number expr quoted => do
        let known := wholeOf (← atoms fuel io (expandable expr.toList))
        match ← calculate io "" known.text with
        | some n => pure (putInto quoted (Decimal.ofInt64 n).toList)
        | none => throw (.exit 1)
    return first ++ (← atoms fuel io w)

/-- What a script prints, without the line feeds at its end. -/
def output (fuel : Nat) (io : Streams) (script : String) : M (List Char) := do
  match fuel with
  | 0 => throw .spent
  | fuel + 1 =>
    let i ← newBuffer
    setStatus 0
    apart (text fuel { io with out := .buffer i } script)
    let bytes := ((← get).buffers[i]?.getD #[]).toList
    return Text.dropWhileEnd (· == '\n') ((Utf8.decodeChars bytes).filter (· != '\x00'))

/-- The fields that words become. -/
def fields (fuel : Nat) (io : Streams) (ws : List Word) : M (List String) := do
  match fuel, ws with
  | 0, _ => throw .spent
  | _, [] => return []
  | fuel + 1, w :: ws =>
    let e ← env
    let found ← (bracesOut w).mapM fun w => do
      if isAllArgs w && e.args.isEmpty then return []
      else
        let fs := fieldsOf (← atoms fuel io (homeOut ((e.value? "HOME").getD "~") w))
        let files := (← get).files
        return fs.flatMap (Field.texts files e.cwd)
    return found.flatten ++ (← fields fuel io ws)

/-- The text that a word becomes where it cannot be split. -/
def whole (fuel : Nat) (io : Streams) (w : Word) : M Field := do
  match fuel with
  | 0 => throw .spent
  | fuel + 1 =>
    let e ← env
    return wholeOf (← atoms fuel io (homeOut ((e.value? "HOME").getD "~") w))

/-- The streams after redirections; none if one of them fails. -/
def redirected (fuel : Nat) (io : Streams) (rs : List Redirect) : M (Option Streams) := do
  match fuel, rs with
  | 0, _ => throw .spent
  | _, [] => return some io
  | fuel + 1, .here w :: rs =>
    let text := (← whole fuel io w).text
    let input ← newInput (textBytes text)
    redirected fuel { io with input } rs
  | fuel + 1, .path stream? sign w :: rs =>
    let target := (← whole fuel io w).text
    let s ← get
    let failed (e : FileError) : M (Option Streams) := do
      complain io (target ++ ": " ++ e.message)
      setStatus 1
      return none
    let led (stream : Nat) (sink : Sink) : Streams :=
      match stream with
      | 1 => { io with out := sink }
      | 2 => { io with err := sink }
      | _ => io
    if sign == "<" then
      if target == "/dev/null" then
        let input ← newInput []
        redirected fuel { io with input } rs
      else if target == "/dev/stdin" then redirected fuel io rs
      else
        match s.files.read s.env.cwd target with
        | .error e => failed e
        | .ok bytes =>
          let input ← newInput bytes
          redirected fuel { io with input } rs
    else if sign == "<<<" then
      let input ← newInput (textBytes (target ++ "\n"))
      redirected fuel { io with input } rs
    else if sign == ">&" && (target == "1" || target == "2" || target == "-") then
      let sink := if target == "1" then io.out else if target == "2" then io.err else .closed
      redirected fuel (led (stream?.getD 1) sink) rs
    else if sign == "<&" then redirected fuel io rs
    else
      let both (sink : Sink) : Streams :=
        if sign == "&>" || (sign == ">&" && stream?.isNone) then
          { io with out := sink, err := sink }
        else led (stream?.getD 1) sink
      if target == "/dev/null" then redirected fuel (both .closed) rs
      else if target == "/dev/stdout" then redirected fuel (both io.out) rs
      else if target == "/dev/stderr" then redirected fuel (both io.err) rs
      else
        match s.files.ready s.env.cwd target (sign != ">>") with
        | .error e => failed e
        | .ok (at_, files) =>
          modify fun s => { s with files }
          redirected fuel (both (.file at_)) rs

/-- Runs a script given as text, line by line up to its first fault. -/
def text (fuel : Nat) (io : Streams) (script : String) : M Unit := do
  match fuel with
  | 0 => throw .spent
  | fuel + 1 =>
    let (lines, fault?) := parse script
    if (← env).single then modifyEnv fun e => { e with single := isSingle lines && fault?.isNone }
    lines.forM fun cs => list fuel io false cs
    if let some fault := fault? then
      write io.err (textBytes (fault.message (← env).name script))
      throw (.exit 2)

/-- Runs a list.  `seen` tells whether somebody looks at its failure. -/
def list (fuel : Nat) (io : Streams) (seen : Bool) (cs : List Chain) : M Unit := do
  match fuel, cs with
  | 0, _ => throw .spent
  | _, [] => return ()
  | fuel + 1, .mk p ps background :: cs =>
    if background then
      apart (joinedRun fuel io true .and p ps)
      setStatus 0
    else joinedRun fuel io seen .and p ps
    list fuel io seen cs

/-- Runs a pipeline and those that are joined to it. -/
def joinedRun (fuel : Nat) (io : Streams) (seen : Bool) (_joint : Joint) (p : Pipeline)
    (ps : List (Joint × Pipeline)) : M Unit := do
  match fuel with
  | 0 => throw .spent
  | fuel + 1 =>
    pipelineRun fuel io (seen || !ps.isEmpty) p
    afterwards fuel io seen ps

/-- Runs those of some pipelines that the outcome of the ones before calls for. -/
def afterwards (fuel : Nat) (io : Streams) (seen : Bool) (ps : List (Joint × Pipeline)) :
    M Unit := do
  match fuel, ps with
  | 0, _ => throw .spent
  | _, [] => return ()
  | fuel + 1, (joint, p) :: ps =>
    let ok := (← env).status == 0
    if ok == (joint == .and) then pipelineRun fuel io (seen || !ps.isEmpty) p
    afterwards fuel io seen ps

/-- Runs a pipeline. -/
def pipelineRun (fuel : Nat) (io : Streams) (seen : Bool) (p : Pipeline) : M Unit := do
  match fuel, p with
  | 0, _ => throw .spent
  | fuel + 1, .mk negated cs =>
    match cs with
    | [c] => commandRun fuel io (seen || negated) c
    | _ =>
      let codes ← piped fuel io cs
      let failed := codes.reverse.find? (· != 0)
      setStatus (if (← env).pipeFails then failed.getD 0 else codes.getLast?.getD 0)
    let status := (← env).status
    if negated then setStatus (if status == 0 then 1 else 0)
    else if status != 0 && !seen && failsItself cs && (← env).strict then throw (.exit status)

/-- Runs commands whose output goes into one another, and gives their exit codes. -/
def piped (fuel : Nat) (io : Streams) (cs : List Command) : M (List Nat) := do
  match fuel, cs with
  | 0, _ => throw .spent
  | _, [] => return []
  | fuel + 1, [c] =>
    apart (commandRun fuel io false c)
    return [(← env).status]
  | fuel + 1, c :: cs =>
    let i ← newBuffer
    match ← attempt (apart (commandRun fuel { io with out := .buffer i } false c)) with
    | some .spent | none => pure ()
    | some l => throw l
    let code := (← env).status
    let bytes := ((← get).buffers[i]?.getD #[]).toList
    modify fun s => { s with buffers := s.buffers.set! i #[] }
    let input ← newInput bytes
    return code :: (← piped fuel { io with input } cs)

/-- Runs one round of a loop.  Tells whether the loop goes on. -/
def round (fuel : Nat) (io : Streams) (seen : Bool) (body : List Chain) : M Bool := do
  match fuel with
  | 0 => throw .spent
  | fuel + 1 =>
    let loops := (← env).loops
    modifyEnv fun e => { e with loops := loops + 1 }
    let leave? ← attempt (list fuel io seen body)
    modifyEnv fun e => { e with loops }
    match leave? with
    | none => return true
    | some (.loop (n + 2) again) => if loops == 0 then return false else throw (.loop (n + 1) again)
    | some (.loop _ again) => return again
    | some l => throw l

/-- Runs a command. -/
def commandRun (fuel : Nat) (io : Streams) (seen : Bool) (c : Command) : M Unit := do
  match fuel with
  | 0 => throw .spent
  | fuel + 1 =>
    let within (rs : List Redirect) (body : Streams → M Unit) : M Unit := do
      match ← redirected fuel io rs with
      | none => return ()
      | some io => body io
    match c with
    | .simple line assigns words rs =>
      modifyEnv fun e => { e with line }
      simpleRun fuel io seen assigns words rs
    | .group body rs => within rs fun io => list fuel io seen body
    | .subshell body rs => within rs fun io => apart (list fuel io seen body)
    | .branch test yes no rs => within rs fun io => do
      list fuel io true test
      if (← env).status == 0 then list fuel io seen yes
      else
        setStatus 0
        list fuel io seen no
    | .loop untilTrue test body rs => within rs fun io => loopRun fuel io seen untilTrue test body 0
    | .each name words? body rs => within rs fun io => do
      let values ← match words? with
        | some words => fields fuel io words
        | none => pure (← env).args
      setStatus 0
      eachRun fuel io seen name body values
    | .choose w arms rs => within rs fun io => do
      let value := (← whole fuel io w).map Prod.fst
      setStatus 0
      armRun fuel io seen value arms
    | .calc expr rs => within rs fun io => do
      let expr := (wholeOf (← atoms fuel io (expandable expr.toList))).map Prod.fst
      calculateStatus io "((: " (String.ofList expr)
    | .count first test next body rs => within rs fun io => do
      calculateStatus io "((: " first
      countRun fuel io seen test next body 0
    | .check words => do
      let fs ← words.mapM (whole fuel io)
      match checked (← get).files (← env) fs with
      | some b => setStatus (if b then 0 else 1)
      | none => setStatus 2
    | .define name body =>
      modifyEnv fun e => { e with defined := (name, body) :: e.defined }
      setStatus 0

/-- Runs a loop as long as its test holds.  `code` is the exit code of the round before. -/
def loopRun (fuel : Nat) (io : Streams) (seen untilTrue : Bool) (test body : List Chain)
    (code : Nat) : M Unit := do
  match fuel with
  | 0 => throw .spent
  | fuel + 1 =>
    list fuel io true test
    if ((← env).status == 0) == untilTrue then setStatus code
    else if ← round fuel io seen body then
      loopRun fuel io seen untilTrue test body (← env).status

/-- Runs a loop as long as an expression is not 0.  `code` is the exit code of the round before. -/
def countRun (fuel : Nat) (io : Streams) (seen : Bool) (test next : String) (body : List Chain)
    (code : Nat) : M Unit := do
  match fuel with
  | 0 => throw .spent
  | fuel + 1 =>
    if !(skipBlanks test.toList).isEmpty then calculateStatus io "((: " test else setStatus 0
    if (← env).status != 0 then setStatus code
    else if ← round fuel io seen body then
      let code := (← env).status
      calculateStatus io "((: " next
      countRun fuel io seen test next body code

/-- Runs a list for each value of a variable. -/
def eachRun (fuel : Nat) (io : Streams) (seen : Bool) (name : String) (body : List Chain)
    (values : List String) : M Unit := do
  match fuel, values with
  | 0, _ => throw .spent
  | _, [] => return ()
  | fuel + 1, v :: values =>
    assign name v
    if ← round fuel io seen body then eachRun fuel io seen name body values

/-- Runs the list of the first pattern that fits. -/
def armRun (fuel : Nat) (io : Streams) (seen : Bool) (value : List Char)
    (arms : List (List Word × List Chain)) : M Unit := do
  match fuel, arms with
  | 0, _ => throw .spent
  | _, [] => return ()
  | fuel + 1, (patterns, body) :: arms =>
    let fs ← patterns.mapM (whole fuel io)
    if fs.any (·.fitsText value) then list fuel io seen body
    else armRun fuel io seen value arms

/-- Runs a simple command. -/
def simpleRun (fuel : Nat) (io : Streams) (seen : Bool) (assigns : List (String × Word))
    (words : List Word) (rs : List Redirect) : M Unit := do
  match fuel with
  | 0 => throw .spent
  | fuel + 1 =>
    let args ← fields fuel io words
    match ← redirected fuel io rs with
    | none => return ()
    | some io =>
      let values ← assigns.mapM fun (name, w) => do return (name, (← whole fuel io w).text)
      match args with
      | [] =>
        values.forM fun (name, value) => assign name value
        if !(assigns.any (hasOutput ·.2) || words.any hasOutput) then setStatus 0
      | name :: args =>
        if values.isEmpty then named fuel io seen name args
        else
          let old ← env
          values.forM fun (name, value) => do
            assign name value
            exportVar name
          named fuel io seen name args
          modifyEnv fun e => { e with
            vars := values.foldl (fun vars (name, _) =>
              (old.vars.filter (·.1 == name)) ++ vars.filter (·.1 != name)) e.vars
            exported := old.exported }

/-- Runs a command by its name. -/
def named (fuel : Nat) (io : Streams) (seen : Bool) (name : String) (args : List String) :
    M Unit := do
  match fuel with
  | 0 => throw .spent
  | fuel + 1 =>
    let e ← env
    match e.defined.lookup name with
    | some body =>
      modifyEnv fun e => { e with args, calls := e.calls + 1, loops := 0, locals := [] }
      let leave? ← attempt (commandRun fuel io seen body)
      (← env).locals.forM fun (name, old?) =>
        match old? with
        | some old => assign name old
        | none => unassign name
      modifyEnv fun inner =>
        { inner with args := e.args, calls := e.calls, loops := e.loops, locals := e.locals }
      match leave? with
      | none | some .back => return ()
      | some l => throw l
    | none =>
      if builtins.contains name then builtin fuel io name args
      else program fuel io name args

/-- Runs a program by its name. -/
def program (fuel : Nat) (io : Streams) (path : String) (args : List String) : M Unit := do
  match fuel with
  | 0 => throw .spent
  | fuel + 1 =>
    let e ← env
    let name := programName path
    let failed (code : Nat) (reason : String) : M Unit := do
      complain io (path ++ ": " ++ reason)
      setStatus code
    if name == "bash" || name == "sh" then child fuel io name args
    else if name == "env" then
      let vars := args.takeWhile fun a => a.toList.contains '=' || a == "-i"
      let rest := args.drop vars.length
      apart do
        if vars.contains "-i" then modifyEnv fun e => { e with exported := [] }
        declare io "env" true (vars.filter (· != "-i"))
        match rest with
        | [] => useTool io (← env).environment Tool.printenv []
        | name :: args => named fuel io false name args
    else if name == "timeout" then
      match args.drop 1 with
      | name :: args => program fuel io name args
      | [] => setStatus 125
    else if name == "which" then
      args.forM fun n => do
        if isProgram n then
          useTool io [] (Tool.fixedLine ("/usr/bin/" ++ n)) []
        else setStatus 1
    else if name == "true" then setStatus 0
    else if name == "false" then setStatus 1
    else if ["echo", "printf", "test", "[", "kill", "pwd"].contains name then
      builtin fuel io name args
    else
      match Tool.all.lookup name with
      | some tool => useTool io e.environment tool args
      | none =>
        if path.toList.contains '/' then
          match (← get).files.find e.cwd path with
          | .error reason => failed 127 reason.message
          | .ok (_, .directory) => failed 126 FileError.isDirectory.message
          | .ok (_, .file _) => failed 126 "Permission denied"
        else failed 127 "command not found"

/-- Runs a shell of its own. -/
def child (fuel : Nat) (io : Streams) (name : String) (args : List String) : M Unit := do
  match fuel with
  | 0 => throw .spent
  | fuel + 1 =>
    let outer ← env
    let pid := (← get).lastPid + 1
    modify fun s => { s with lastPid := pid }
    let (flags, rest) := shellOptions args
    let fresh : Env := {
      cwd := outer.cwd, vars := outer.environment.reverse, exported := outer.exported, pid, name
      strict := flags.contains 'e', careful := flags.contains 'u', single := true }
    let run (fresh : Env) (script : String) : M Unit := do
      modifyEnv fun _ => fresh
      let leave? ← attempt (text fuel io script)
      if let some (.exit code) := leave? then setStatus code
      let ended ← env
      let final := match leave? with
        | some (.killed signal) => isFinal signal
        | _ => false
      if let some script := ended.traps.lookup 0 then
        if !final then
          match ← attempt (text fuel io script) with
          | some (.exit code) => setStatus code
          | _ => setStatus ended.status
      let last ← env
      modifyEnv fun _ => outer
      match leave? with
      | some (.killed signal) =>
        if outer.single then throw (.killed signal) else setStatus (128 + signal)
      | _ => setStatus last.status
    if flags.contains 'c' then
      match rest with
      | [] =>
        write io.err (textBytes (name ++ ": -c: option requires an argument\n"))
        setStatus 2
      | script :: rest =>
        run { fresh with name := rest.head?.getD name, args := rest.drop 1 } script
    else
      match rest with
      | [] =>
        let s ← get
        let script := Utf8.decode (s.inputs[io.input]?.getD [])
        modify fun s => { s with inputs := s.inputs.set! io.input [] }
        run fresh script
      | path :: args =>
        match (← get).files.read outer.cwd path with
        | .error e =>
          write io.err (textBytes (name ++ ": " ++ path ++ ": " ++ e.message ++ "\n"))
          setStatus (if e == .isDirectory then 126 else 127)
        | .ok bytes => run { fresh with name := path, args } (Utf8.decode bytes)

/-- Does what a shell does itself. -/
def builtin (fuel : Nat) (io : Streams) (name : String) (args : List String) : M Unit := do
  match fuel with
  | 0 => throw .spent
  | fuel + 1 =>
    let e ← env
    let speaker := e.name ++ ": line " ++ toString e.line ++ ": "
    let numberOr (default : Nat) (leave : Nat → M Unit) : M Unit := do
      match args with
      | [] => leave default
      | arg :: more =>
        match Decimal.readInt arg.toList with
        | none =>
          complain io (name ++ ": " ++ arg ++ ": numeric argument required")
          leave 2
        | some n =>
          if more.isEmpty then leave (exitCode n)
          else
            complain io (name ++ ": too many arguments")
            setStatus 1
    match name with
    | "false" => setStatus 1
    | "exit" => numberOr e.status fun code => throw (.exit code)
    | "return" =>
      if e.calls == 0 then
        complain io "return: can only \x60return' from a function or sourced script"
        setStatus 2
      else
        numberOr e.status fun code => do
          setStatus code
          throw .back
    | "break" | "continue" =>
      if e.loops == 0 then
        complain io (name ++ ": only meaningful in a \x60for', \x60while', or \x60until' loop")
        setStatus 0
      else
        setStatus 0
        throw (.loop (levels args) (name == "continue"))
    | "cd" => changeDirectory io args
    | "pwd" => useTool io [] (Tool.fixedLine (Tool.placeText e.cwd)) []
    | "export" => declare io name true args
    | "local" | "declare" | "readonly" | "typeset" => declare io name (args.contains "-x") args
    | "unset" =>
      modifyEnv fun e => { e with
        vars := e.vars.filter fun (n, _) => !args.contains n
        exported := e.exported.filter (!args.contains ·)
        defined := e.defined.filter fun (n, _) => !args.contains n }
      setStatus 0
    | "set" => setOptions false args
    | "shift" =>
      let n := (args.head?.bind fun a => Decimal.readNat a.toList).getD 1
      if n ≤ e.args.length then
        modifyEnv fun e => { e with args := e.args.drop n }
        setStatus 0
      else setStatus 1
    | "read" => readLine io args
    | "echo" => useTool io [] Tool.echo args
    | "printf" =>
      match args with
      | "-v" :: target :: args =>
        let i ← newBuffer
        useTool { io with out := .buffer i } [] (Tool.printf speaker) args
        let bytes := ((← get).buffers[i]?.getD #[]).toList
        assign target (Utf8.decode bytes)
      | _ => useTool io [] (Tool.printf speaker) args
    | "test" | "[" => useTool io e.vars (Tool.test speaker name) args
    | "kill" =>
      kill io args
      let { due, status, .. } ← env
      modifyEnv fun e => { e with due := [] }
      due.forM (text fuel io)
      setStatus status
    | "eval" =>
      setStatus 0
      text fuel io (Text.join " " args)
    | "exec" =>
      match args with
      | [] => setStatus 0
      | name :: args =>
        if name.toList.contains '/' || isProgram name then program fuel io name args
        else
          complain io ("exec: " ++ name ++ ": not found")
          setStatus 127
        throw (.exit (← env).status)
    | "." | "source" =>
      match args with
      | path :: _ =>
        match (← get).files.read e.cwd path with
        | .ok bytes =>
          modifyEnv fun e => { e with calls := e.calls + 1 }
          let leave? ← attempt (text fuel io (Utf8.decode bytes))
          modifyEnv fun inner => { inner with calls := e.calls }
          match leave? with
          | none | some .back => return ()
          | some l => throw l
        | .error reason =>
          complain io (path ++ ": " ++ reason.message)
          setStatus 1
      | [] => setStatus 2
    | "command" | "type" | "builtin" =>
      let known (n : String) : Bool := builtins.contains n || isProgram n
      match args with
      | "-v" :: n :: _ =>
        if builtins.contains n || (e.defined.lookup n).isSome then
          useTool io [] (Tool.fixedLine n) []
        else if known n then useTool io [] (Tool.fixedLine ("/usr/bin/" ++ n)) []
        else setStatus 1
      | n :: rest =>
        if name != "type" then named fuel io false n rest
        else if (e.defined.lookup n).isSome then
          useTool io [] (Tool.fixedLine (n ++ " is a function")) []
        else if builtins.contains n then
          useTool io [] (Tool.fixedLine (n ++ " is a shell builtin")) []
        else if known n then
          useTool io [] (Tool.fixedLine (n ++ " is /usr/bin/" ++ n)) []
        else
          complain io ("type: " ++ n ++ ": not found")
          setStatus 1
      | [] => setStatus 0
    | "trap" => setTraps args
    | "umask" => useTool io [] (Tool.fixedLine "0022") []
    | "let" => args.forM fun arg => calculateStatus io "let: " arg
    | _ => setStatus 0

end

end Shell

end Rehearsal

end Provisioning

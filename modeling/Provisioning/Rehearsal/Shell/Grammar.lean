import Provisioning.Rehearsal.Shell.Token

/-!
# The grammar of shell scripts

A script is a list of chains; a chain joins pipelines by `&&` and `||`; a pipeline joins commands
by `|`.  Commands are simple or hold lists themselves.  A script is read line by line: what stands
before a fault is a script still.
-/

namespace Provisioning

namespace Rehearsal

namespace Shell

/-- A redirection and where it leads. -/
inductive Redirect where
  /-- To or from a file or another stream. -/
  | path (stream? : Option Nat) (sign : String) (target : Word)
  /-- Input that stands in the script itself. -/
  | here (text : Word)

/-- What joins two pipelines. -/
inductive Joint where
  | and
  | or
deriving DecidableEq

mutual

/-- A command. -/
inductive Command where
  /-- Assignments, a name and arguments. -/
  | simple (line : Nat) (assigns : List (String × Word)) (words : List Word)
    (redirects : List Redirect)
  /-- A list in braces. -/
  | group (body : List Chain) (redirects : List Redirect)
  /-- A list in parentheses. -/
  | subshell (body : List Chain) (redirects : List Redirect)
  /-- One of two lists. -/
  | branch (test yes no : List Chain) (redirects : List Redirect)
  /-- A list again and again, as long as another succeeds, or until it does. -/
  | loop (untilTrue : Bool) (test body : List Chain) (redirects : List Redirect)
  /-- A list for each of some words; without words for each argument. -/
  | each (name : String) (words? : Option (List Word)) (body : List Chain)
    (redirects : List Redirect)
  /-- The list of the first pattern that fits. -/
  | choose (word : Word) (arms : List (List Word × List Chain)) (redirects : List Redirect)
  /-- A command to be run under a name of its own. -/
  | define (name : String) (body : Command)
  /-- An expression that is to be calculated. -/
  | calc (expr : String) (redirects : List Redirect)
  /-- A list again and again, with an expression before all rounds, as the test of each and after
  it. -/
  | count (first test next : String) (body : List Chain) (redirects : List Redirect)
  /-- A test whose words are neither split nor matched with files. -/
  | check (words : List Word)

/-- Commands whose output goes into one another. -/
inductive Pipeline where
  | mk (negated : Bool) (commands : List Command)

/-- Pipelines that run as those before them end. -/
inductive Chain where
  | mk (first : Pipeline) (rest : List (Joint × Pipeline)) (background : Bool)

end

/-- Tokens with their lines. -/
abbrev Tokens := List (Nat × Token)

/-- What keeps a text from being a script. -/
inductive GrammarFault where
  /-- A quote is never closed. -/
  | openQuote (line : Nat) (quote : Char)
  /-- Something stands where it may not. -/
  | unexpected (line : Nat) (token : String)
  /-- The text ends too early. -/
  | unfinished

/-- How a token is shown. -/
def Token.show : Token → String
  | .word w => String.ofList (Word.plainText w)
  | .op "\n" => "newline"
  | .op s => s
  | .redirect _ s => s
  | .here _ => "<<"
  | .calc _ => "(("
  | .unclosed q => q.toString

/-- What is said of a fault in a script. -/
def GrammarFault.message (shellName script : String) (fault : GrammarFault) : String :=
  let lines := Text.lines script
  let here (line : Nat) : String := shellName ++ ": -c: line " ++ toString line ++ ": "
  match fault with
  | openQuote line quote =>
    here (if quote == ')' then lines.length + 1 else line)
      ++ "unexpected EOF while looking for matching \x60" ++ quote.toString ++ "'\n"
  | unexpected line token =>
    here line ++ "syntax error near unexpected token \x60" ++ token ++ "'\n"
      ++ here line ++ "\x60" ++ (lines[line - 1]?).getD "" ++ "'\n"
  | unfinished => here (lines.length + 1) ++ "syntax error: unexpected end of file\n"

/-- The fault of meeting some tokens. -/
def unexpected : Tokens → GrammarFault
  | (line, .unclosed quote) :: _ => .openQuote line quote
  | (line, t) :: _ => .unexpected line t.show
  | [] => .unfinished

/-- The word that tokens begin with, if it has a meaning of its own. -/
def keyword? : Tokens → Option String
  | (_, .word w) :: _ => plain? w
  | (_, .op ")") :: _ => some ")"
  | _ => none

/-- The line that tokens begin in. -/
def lineOf (ts : Tokens) : Nat := (ts.head?.map Prod.fst).getD 1

/-- The tokens without the line feeds in front. -/
def skipFeeds : Tokens → Tokens
  | (_, .op "\n") :: ts => skipFeeds ts
  | ts => ts

/-- The tokens after a separator. -/
def skipSeparator : Tokens → Tokens
  | (_, .op ";") :: ts => skipFeeds ts
  | ts => skipFeeds ts

/-- The tokens after a keyword. -/
def expect (w : String) (ts : Tokens) : Except GrammarFault Tokens :=
  if keyword? ts == some w then .ok ts.tail else .error (unexpected ts)

/-- The keywords that end a list. -/
def closers : List String := ["\x7d", "then", "elif", "else", "fi", "do", "done", "esac", ")"]

/-! ### Simple commands -/

/-- The redirections in front of tokens. -/
def redirects : (fuel : Nat) → Tokens → Except GrammarFault (List Redirect × Tokens)
  | 0, ts => .ok ([], ts)
  | fuel + 1, (_, .redirect stream? sign) :: (_, .word w) :: ts => do
    let (rs, ts) ← redirects fuel ts
    return (.path stream? sign w :: rs, ts)
  | fuel + 1, (_, .here text) :: ts => do
    let (rs, ts) ← redirects fuel ts
    return (.here text :: rs, ts)
  | _, (_, .redirect ..) :: (line, t) :: _ => .error (unexpected [(line, t)])
  | _, [(line, .redirect ..)] => .error (.unexpected line "newline")
  | _, ts => .ok ([], ts)

/-- The variable and the value of a word that assigns. -/
def assignment? : Word → Option (String × Word)
  | .text cs false :: rest =>
    match Text.cut ['='] cs with
    | some (name, value) =>
      if name.head?.any beginsName && name.all inName then
        some (String.ofList name, if value.isEmpty then rest else .text value false :: rest)
      else none
    | none => none
  | _ => none

/-- The words and redirections of a simple command. -/
def simple : (fuel : Nat) → Tokens → Except GrammarFault (List Word × List Redirect × Tokens)
  | fuel + 1, (_, .word w) :: ts => do
    let (ws, rs, ts) ← simple fuel ts
    return (w :: ws, rs, ts)
  | fuel + 1, ts@((_, .redirect ..) :: _) | fuel + 1, ts@((_, .here _) :: _) => do
    let (rs, ts) ← redirects 1 ts
    let (ws, rs', ts) ← simple fuel ts
    return (ws, rs ++ rs', ts)
  | _, ts@((_, .unclosed _) :: _) => .error (unexpected ts)
  | _, ts => .ok ([], [], ts)

/-- The assignments at the beginning of some words, and the other words. -/
def splitAssigns : List Word → List (String × Word) × List Word
  | [] => ([], [])
  | w :: ws =>
    match assignment? w with
    | some a =>
      let (as, ws) := splitAssigns ws
      (a :: as, ws)
    | none => ([], w :: ws)

/-- The words up to the end of their line. -/
def lineWords : Tokens → List Word × Tokens
  | (_, .word w) :: ts =>
    let (ws, ts) := lineWords ts
    (w :: ws, ts)
  | ts => ([], ts)

/-- The words of a test up to the one that closes it; operators count as words. -/
def checkWords : Tokens → Except GrammarFault (List Word × Tokens)
  | [] => .error .unfinished
  | (line, t) :: ts =>
    let more (w : Word) : Except GrammarFault (List Word × Tokens) :=
      (checkWords ts).map fun (ws, ts) => (w :: ws, ts)
    match t with
    | .word w => if plain? w == some "]]" then .ok ([], ts) else more w
    | .op s => more [.text s.toList false]
    | .redirect none s => more [.text s.toList false]
    | _ => .error (unexpected [(line, t)])

/-- The parts of an expression between semicolons. -/
def calcParts (expr : String) : List String :=
  (Text.splitOn ';' expr.toList).map String.ofList

/-- The patterns up to the parenthesis after them. -/
def patterns : Tokens → Except GrammarFault (List Word × Tokens)
  | (_, .word w) :: (_, .op "|") :: ts => do
    let (ws, ts) ← patterns ts
    return (w :: ws, ts)
  | (_, .word w) :: (_, .op ")") :: ts => .ok ([w], ts)
  | (_, .word _) :: ts | ts => .error (unexpected ts)

/-! ### Lists -/

mutual

/-- A list up to what closes it, or the end. -/
def chains : (fuel : Nat) → Tokens → Except GrammarFault (List Chain × Tokens)
  | 0, ts => .ok ([], ts)
  | fuel + 1, ts => do
    let ts := skipFeeds ts
    if (keyword? ts).any closers.contains then return ([], ts)
    match ts with
    | [] | (_, .op ";;") :: _ => return ([], ts)
    | _ =>
      let (c, ts) ← chain fuel ts
      match ts with
      | (_, .op s) :: rest =>
        if s == ";" || s == "&" || s == "\n" then
          let (cs, ts) ← chains fuel rest
          return (c :: cs, ts)
        else return ([c], ts)
      | _ => return ([c], ts)

/-- A chain. -/
def chain : (fuel : Nat) → Tokens → Except GrammarFault (Chain × Tokens)
  | 0, ts => .error (unexpected ts)
  | fuel + 1, ts => do
    let (p, ts) ← pipeline fuel ts
    let (ps, ts) ← joined fuel ts
    let background := match ts with
      | (_, .op "&") :: _ => true
      | _ => false
    return (.mk p ps background, ts)

/-- The pipelines that are joined to one. -/
def joined : (fuel : Nat) → Tokens → Except GrammarFault (List (Joint × Pipeline) × Tokens)
  | fuel + 1, (line, .op s) :: ts => do
    if s == "&&" || s == "||" then
      let (p, ts) ← pipeline fuel (skipFeeds ts)
      let (ps, ts) ← joined fuel ts
      return ((if s == "&&" then .and else .or, p) :: ps, ts)
    else return ([], (line, .op s) :: ts)
  | _, ts => .ok ([], ts)

/-- A pipeline. -/
def pipeline : (fuel : Nat) → Tokens → Except GrammarFault (Pipeline × Tokens)
  | 0, ts => .error (unexpected ts)
  | fuel + 1, ts => do
    if keyword? ts == some "!" then
      let (.mk negated cs, ts) ← pipeline fuel ts.tail
      return (.mk (!negated) cs, ts)
    let (c, ts) ← command fuel ts
    match ts with
    | (_, .op "|") :: rest =>
      let (.mk _ cs, ts) ← pipeline fuel (skipFeeds rest)
      return (.mk false (c :: cs), ts)
    | _ => return (.mk false [c], ts)

/-- A command. -/
def command : (fuel : Nat) → Tokens → Except GrammarFault (Command × Tokens)
  | 0, ts => .error (unexpected ts)
  | fuel + 1, ts => do
    match ts with
    | (_, .op "(") :: rest =>
      let (body, rest) ← enclosed fuel ")" rest
      let (rs, rest) ← redirects fuel rest
      return (.subshell body rs, rest)
    | (_, .calc expr) :: rest =>
      let (rs, rest) ← redirects fuel rest
      return (.calc expr rs, rest)
    | (_, .op _) :: _ | (_, .unclosed _) :: _ | [] => throw (unexpected ts)
    | _ =>
      match keyword? ts with
      | some "\x7b" =>
        let (body, rest) ← enclosed fuel "\x7d" ts.tail
        let (rs, rest) ← redirects fuel rest
        return (.group body rs, rest)
      | some "if" => conditional fuel ts.tail
      | some "while" => repeated fuel false ts.tail
      | some "until" => repeated fuel true ts.tail
      | some "for" => forEach fuel ts.tail
      | some "case" => choice fuel ts.tail
      | some "function" =>
        match ts.tail with
        | (_, .word w) :: rest =>
          let rest := match rest with
            | (_, .op "(") :: (_, .op ")") :: rest => rest
            | _ => rest
          let (body, rest) ← command fuel (skipFeeds rest)
          return (.define ((plain? w).getD "") body, rest)
        | rest => throw (unexpected rest)
      | some "[[" =>
        let (ws, rest) ← checkWords ts.tail
        return (.check ws, rest)
      | some w =>
        if closers.contains w then throw (unexpected ts) else simpleCommand fuel (lineOf ts) ts
      | none => simpleCommand fuel (lineOf ts) ts

/-- A list that is not empty, and the keyword after it. -/
def enclosed : (fuel : Nat) → (close : String) → Tokens →
    Except GrammarFault (List Chain × Tokens)
  | 0, _, ts => .error (unexpected ts)
  | fuel + 1, close, ts => do
    let (body, ts) ← chains fuel ts
    if body.isEmpty then throw (unexpected ts)
    return (body, ← expect close ts)

/-- A simple command, or the definition of a command. -/
def simpleCommand : (fuel : Nat) → (line : Nat) → Tokens →
    Except GrammarFault (Command × Tokens)
  | 0, _, ts => .error (unexpected ts)
  | fuel + 1, line, ts => do
    let (ws, rs, rest) ← simple (ts.length + 1) ts
    match ws, rs, rest with
    | [w], [], (_, .op "(") :: (_, .op ")") :: rest =>
      let (body, rest) ← command fuel (skipFeeds rest)
      return (.define ((plain? w).getD "") body, rest)
    | _, _, (_, .op "(") :: _ => throw (unexpected rest)
    | _, _, _ =>
      let (assigns, ws) := splitAssigns ws
      return (.simple line assigns ws rs, rest)

/-- A conditional after its first keyword. -/
def conditional : (fuel : Nat) → Tokens → Except GrammarFault (Command × Tokens)
  | 0, ts => .error (unexpected ts)
  | fuel + 1, ts => do
    let (test, ts) ← enclosed fuel "then" ts
    let (yes, ts) ← chains fuel ts
    if yes.isEmpty then throw (unexpected ts)
    match keyword? ts with
    | some "elif" =>
      let (no, ts) ← conditional fuel ts.tail
      return (.branch test yes [.mk (.mk false [no]) [] false] [], ts)
    | some "else" =>
      let (no, ts) ← enclosed fuel "fi" ts.tail
      let (rs, ts) ← redirects fuel ts
      return (.branch test yes no rs, ts)
    | _ =>
      let ts ← expect "fi" ts
      let (rs, ts) ← redirects fuel ts
      return (.branch test yes [] rs, ts)

/-- A loop after its first keyword. -/
def repeated : (fuel : Nat) → (untilTrue : Bool) → Tokens →
    Except GrammarFault (Command × Tokens)
  | 0, _, ts => .error (unexpected ts)
  | fuel + 1, untilTrue, ts => do
    let (test, ts) ← enclosed fuel "do" ts
    let (body, ts) ← enclosed fuel "done" ts
    let (rs, ts) ← redirects fuel ts
    return (.loop untilTrue test body rs, ts)

/-- A loop over words after its first keyword. -/
def forEach : (fuel : Nat) → Tokens → Except GrammarFault (Command × Tokens)
  | fuel + 1, (_, .word name) :: ts => do
    let ts := skipFeeds ts
    let (words?, ts) :=
      if keyword? ts == some "in" then
        let (ws, ts) := lineWords ts.tail
        (some ws, ts)
      else (none, ts)
    let ts ← expect "do" (skipSeparator ts)
    let (body, ts) ← enclosed fuel "done" ts
    let (rs, ts) ← redirects fuel ts
    return (.each ((plain? name).getD "") words? body rs, ts)
  | fuel + 1, (line, .calc expr) :: ts => do
    let ts ← expect "do" (skipSeparator ts)
    let (body, ts) ← enclosed fuel "done" ts
    let (rs, ts) ← redirects fuel ts
    match calcParts expr with
    | [first, test, next] => return (.count first test next body rs, ts)
    | _ => throw (.unexpected line "((")
  | _, ts => .error (unexpected ts)

/-- A choice between patterns after its first keyword. -/
def choice : (fuel : Nat) → Tokens → Except GrammarFault (Command × Tokens)
  | fuel + 1, (_, .word w) :: ts => do
    let ts ← expect "in" (skipFeeds ts)
    let (arms, ts) ← choices fuel ts
    let (rs, ts) ← redirects fuel ts
    return (.choose w arms rs, ts)
  | _, ts => .error (unexpected ts)

/-- The patterns of a choice, each with its list, up to the keyword after them. -/
def choices : (fuel : Nat) → Tokens →
    Except GrammarFault (List (List Word × List Chain) × Tokens)
  | 0, ts => .error (unexpected ts)
  | fuel + 1, ts => do
    let ts := skipFeeds ts
    if keyword? ts == some "esac" then return ([], ts.tail)
    let ts := match ts with
      | (_, .op "(") :: rest => rest
      | _ => ts
    let (ws, ts) ← patterns ts
    let (body, ts) ← chains fuel ts
    match ts with
    | (_, .op ";;") :: rest =>
      let (arms, ts) ← choices fuel rest
      return ((ws, body) :: arms, ts)
    | _ => return ([(ws, body)], ← expect "esac" ts)

end

/-! ### Scripts -/

/-- The chains of a line, and what comes after it. -/
def line : (fuel : Nat) → Tokens → Except GrammarFault (List Chain × Tokens)
  | 0, ts => .error (unexpected ts)
  | fuel + 1, ts => do
    let (c, ts) ← chain (4 * ts.length + 8) ts
    match ts with
    | [] => return ([c], [])
    | (_, .op s) :: rest =>
      if s == "\n" then return ([c], rest)
      else if s == ";" || s == "&" then
        match rest with
        | [] => return ([c], [])
        | (_, .op "\n") :: rest => return ([c], rest)
        | _ =>
          let (cs, ts) ← line fuel rest
          return (c :: cs, ts)
      else throw (unexpected ts)
    | _ => throw (unexpected ts)

/-- The lines of a script, up to the first that is faulty, and its fault. -/
def script : (fuel : Nat) → Tokens → List (List Chain) × Option GrammarFault
  | 0, _ => ([], none)
  | fuel + 1, ts =>
    match skipFeeds ts with
    | [] => ([], none)
    | ts =>
      match line (ts.length + 1) ts with
      | .error e => ([], some e)
      | .ok (cs, rest) =>
        let (css, fault?) := script fuel rest
        (cs :: css, fault?)

/-- The lines of the script that a text is, up to the first that is faulty, and its fault. -/
def parse (text : String) : List (List Chain) × Option GrammarFault :=
  let cs := text.toList
  let ts := tokens (2 * cs.length + 2) 1 cs
  script (ts.length + 1) ts

end Shell

end Rehearsal

end Provisioning

import Provisioning.Rehearsal.Shell.Escape
import Provisioning.Text.Blank
import Provisioning.Text.Search

/-!
# Tokens of shell scripts

A script is cut into words, operators and redirections.  A word is a list of parts, because what
stands in quotes is read differently from what does not.  Where a quote is never closed the tokens
end with it, so that the lines before it can still be read.
-/

namespace Provisioning

namespace Rehearsal

namespace Shell

/-- A part of a word. -/
inductive Part where
  /-- Text that stands for itself. -/
  | text (cs : List Char) (quoted : Bool)
  /-- The value of a variable, and what is to be done with it. -/
  | var (inner : String) (quoted : Bool)
  /-- What another script prints. -/
  | output (script : String) (quoted : Bool)
  /-- The value of an arithmetical expression. -/
  | number (expr : String) (quoted : Bool)

/-- A word. -/
abbrev Word := List Part

/-- A token. -/
inductive Token where
  | word (w : Word)
  /-- An operator; a line feed is one too. -/
  | op (s : String)
  /-- A redirection of a stream; which one may go without saying. -/
  | redirect (stream? : Option Nat) (s : String)
  /-- Input that stands in the script itself. -/
  | here (text : Word)
  /-- An expression in double parentheses. -/
  | calc (expr : String)
  /-- A quote that is never closed. -/
  | unclosed (quote : Char)

/-- Puts a part in front of a word; plain text joins plain text. -/
def Part.push (p : Part) (w : Word) : Word :=
  match p, w with
  | .text a false, .text b false :: rest => .text (a ++ b) false :: rest
  | _, _ => p :: w

/-- The plain text that a word is, if it is nothing else. -/
def plain? : Word → Option String
  | [.text cs false] => some (String.ofList cs)
  | _ => none

/-- The characters that end a word. -/
def endsWord (c : Char) : Bool :=
  c == ' ' || c == '\t' || c == '\n' || c == ';' || c == '&' || c == '|' || c == '<' || c == '>'
    || c == '(' || c == ')'

/-- The characters that begin the name of a variable. -/
def beginsName (c : Char) : Bool := c.isAlpha || c == '_'

/-- The characters of the name of a variable. -/
def inName (c : Char) : Bool := c.isAlphanum || c == '_'

/-- The text up to a closing character, and the text after that. -/
def upTo (close : Char) : List Char → Option (List Char × List Char)
  | [] => none
  | c :: cs => if c == close then some ([], cs) else (upTo close cs).map fun (a, b) => (c :: a, b)

/-- The text up to the parenthesis that closes one already open, and the text after it.  `quote?` is
the quote that the text is in. -/
def upToParen : (depth : Nat) → (quote? : Option Char) → List Char →
    Option (List Char × List Char)
  | _, _, [] => none
  | depth, quote?, '\\' :: c :: cs =>
    if quote? == some '\'' then
      (upToParen depth (if c == '\'' then none else quote?) cs).map fun (a, b) =>
        ('\\' :: c :: a, b)
    else (upToParen depth quote? cs).map fun (a, b) => ('\\' :: c :: a, b)
  | depth, quote?, c :: cs =>
    let next (depth : Nat) (quote? : Option Char) :=
      (upToParen depth quote? cs).map fun (a, b) => (c :: a, b)
    match quote? with
    | some q => next depth (if c == q then none else quote?)
    | none =>
      if c == '\'' || c == '"' then next depth (some c)
      else if c == '(' then next (depth + 1) none
      else if c == ')' then
        match depth with
        | 0 => some ([], cs)
        | depth + 1 => next depth none
      else next depth none

/-- The part that begins with a dollar sign, and the text after it. -/
def dollar (quoted : Bool) (cs : List Char) : Part × List Char :=
  let sign : Part × List Char := (.text ['$'] quoted, cs)
  match cs with
  | '(' :: rest =>
    match upToParen 0 none rest with
    | some (inner, rest) =>
      match inner, Text.dropTail? [')'] inner with
      | '(' :: _, some expr => (.number (String.ofList (expr.drop 1)) quoted, rest)
      | _, _ => (.output (String.ofList inner) quoted, rest)
    | none => sign
  | '\x7b' :: rest =>
    match upTo '\x7d' rest with
    | some (name, rest) => (.var (String.ofList name) quoted, rest)
    | none => sign
  | c :: rest =>
    if beginsName c then
      (.var (String.ofList (c :: rest.takeWhile inName)) quoted, rest.dropWhile inName)
    else if c.isDigit || c == '?' || c == '$' || c == '#' || c == '@' || c == '*' || c == '!'
        || c == '-' then
      (.var (String.singleton c) quoted, rest)
    else sign
  | [] => sign

/-- The quote that a text leaves open after a dollar sign, if it does. -/
def openAfterDollar? : List Char → Option Char
  | '(' :: rest => if (upToParen 0 none rest).isNone then some ')' else none
  | '\x7b' :: rest => if (upTo '\x7d' rest).isNone then some '\x7d' else none
  | _ => none

/-- The character that encloses a script whose output is wanted. -/
def backquote : Char := '\x60'

/-- The parts up to the closing double quote, and the text after it; or the quote that is never
closed. -/
def inDouble : (fuel : Nat) → List Char → Except Char (Word × List Char)
  | 0, _ | _, [] => .error '"'
  | fuel + 1, c :: cs =>
    let more (p : Part) (rest : List Char) : Except Char (Word × List Char) := do
      let (w, rest) ← inDouble fuel rest
      return (p :: w, rest)
    if c == backquote then
      match upTo backquote cs with
      | some (script, rest) => more (.output (String.ofList script) true) rest
      | none => .error backquote
    else
      match c, cs with
      | '"', _ => .ok ([], cs)
      | '\\', '\n' :: rest => inDouble fuel rest
      | '\\', d :: rest =>
        if d == '"' || d == '\\' || d == '$' || d == backquote then more (.text [d] true) rest
        else more (.text ['\\', d] true) rest
      | '$', _ =>
        match openAfterDollar? cs with
        | some quote => .error quote
        | none =>
          let (p, rest) := dollar true cs
          more p rest
      | _, _ => more (.text [c] true) cs

/-- The word at the beginning of a text, and the text after it; or the quote that is never
closed. -/
def readWord : (fuel : Nat) → List Char → Except Char (Word × List Char)
  | 0, cs => .ok ([], cs)
  | _, [] => .ok ([], [])
  | fuel + 1, c :: cs =>
    let more (p : Part) (rest : List Char) : Except Char (Word × List Char) := do
      let (w, rest) ← readWord fuel rest
      return (p.push w, rest)
    if endsWord c then .ok ([], c :: cs)
    else if c == backquote then
      match upTo backquote cs with
      | some (script, rest) => more (.output (String.ofList script) false) rest
      | none => .error backquote
    else
      match c, cs with
      | '\'', _ =>
        match upTo '\'' cs with
        | some (text, rest) => more (.text text true) rest
        | none => .error '\''
      | '"', _ => do
        let (inner, rest) ← inDouble (cs.length + 1) cs
        let (w, rest) ← readWord fuel rest
        return (.text [] true :: inner ++ w, rest)
      | '\\', '\n' :: rest => readWord fuel rest
      | '\\', d :: rest => more (.text [d] true) rest
      | '$', '\'' :: quoted =>
        match dollarQuoted? quoted with
        | some (text, rest) => more (.text text true) rest
        | none => .error '\''
      | '$', '"' :: _ => readWord fuel cs
      | '$', _ =>
        match openAfterDollar? cs with
        | some quote => .error quote
        | none =>
          let (p, rest) := dollar false cs
          more p rest
      | _, _ => more (.text [c] false) cs

/-- The text that a word is, whether it is quoted or not. -/
def Word.plainText (w : Word) : List Char :=
  w.flatMap fun
    | .text cs _ => cs
    | _ => []

/-- Whether some part of a word is quoted. -/
def Word.hasQuotes (w : Word) : Bool :=
  w.any fun
    | .text _ quoted => quoted
    | _ => false

/-- The parts of a text that may hold blanks and operators, which mean nothing in it. -/
def looseWord : (fuel : Nat) → List Char → Word
  | 0, cs => [.text cs false]
  | fuel + 1, cs =>
    match readWord (cs.length + 1) cs with
    | .error _ => [.text cs false]
    | .ok (w, []) => w
    | .ok (w, c :: rest) => w ++ .text [c] false :: looseWord fuel rest

/-- The parts of a text in which only dollar signs and backquotes mean something. -/
def expandable (cs : List Char) : Word :=
  let safe := cs.flatMap fun c => if c == '"' then ['\\', c] else [c]
  match inDouble (safe.length + 1) (safe ++ ['"']) with
  | .ok (w, _) => w
  | .error _ => [.text cs true]

/-- The lines up to one that reads `close`, and what comes after that.  With `strip` tabs at the
beginning of lines do not count. -/
def hereLines (close : List Char) (strip : Bool) : List (List Char) → List Char × List (List Char)
  | [] => ([], [])
  | l :: ls =>
    let l := if strip then l.dropWhile (· == '\t') else l
    if Text.dropWhileEnd (· == '\n') l == close then ([], ls)
    else
      let (body, rest) := hereLines close strip ls
      (l ++ body, rest)

/-- The operators, longer ones first. -/
def operators : List String := ["&&", "||", ";;", ";", "|&", "|", "&", "(", ")"]

/-- The signs of redirections, longer ones first. -/
def redirections : List String := ["&>", "<<<", "<<-", "<<", ">>", ">&", "<&", ">|", ">", "<"]

/-- The first of some texts that another text begins with, and what comes after it. -/
def leadingOf (cs : List Char) : List String → Option (String × List Char)
  | [] => none
  | s :: ss =>
    match Text.dropLead? s.toList cs with
    | some rest => some (s, rest)
    | none => leadingOf cs ss

/-- A redirection at the beginning of a text, with the number of the stream, and what comes after
it. -/
def leadingRedirect? (cs : List Char) : Option (Option Nat × String × List Char) :=
  let digits := cs.takeWhile Char.isDigit
  match leadingOf (cs.dropWhile Char.isDigit) redirections with
  | none => none
  | some (sign, rest) =>
    if digits.isEmpty then some (none, sign, rest)
    else if sign == "&>" then none
    else some (some (digits.foldl (fun n d => n * 10 + (d.toNat - 48)) 0), sign, rest)

/-- The expression in double parentheses at the beginning of a text, and what comes after it. -/
def leadingCalc? (cs : List Char) : Option (List Char × List Char) :=
  match cs with
  | '(' :: '(' :: rest =>
    match upToParen 0 none ('(' :: rest) with
    | some (inner, rest) => (Text.dropTail? [')'] inner).map fun expr => (expr.drop 1, rest)
    | none => none
  | _ => none

/-- The tokens of a script, each with the number of its line. -/
def tokens : (fuel : Nat) → (line : Nat) → List Char → List (Nat × Token)
  | 0, _, _ => []
  | _, _, [] => []
  | fuel + 1, line, c :: cs =>
    if c == ' ' || c == '\t' then tokens fuel line cs
    else if c == '\n' then (line, .op "\n") :: tokens fuel (line + 1) cs
    else if c == '#' then tokens fuel line (cs.dropWhile (· != '\n'))
    else if c == '\\' && cs.head? == some '\n' then tokens fuel (line + 1) cs.tail
    else
      match leadingRedirect? (c :: cs) with
      | some (stream?, sign, rest) =>
        if sign == "<<" || sign == "<<-" then
          let rest := rest.dropWhile (· == ' ')
          match readWord (rest.length + 1) rest with
          | .error quote => [(line, .unclosed quote)]
          | .ok (close, rest) =>
            let now := rest.takeWhile (· != '\n')
            let later := Text.pieces '\n' ((rest.dropWhile (· != '\n')).drop 1)
            let (body, later) := hereLines close.plainText (sign == "<<-") later
            let body := if close.hasQuotes then [.text body true] else expandable body
            (line, .here body) :: tokens fuel line (now ++ '\n' :: later.flatten)
        else (line, .redirect stream? sign) :: tokens fuel line rest
      | none =>
        match leadingCalc? (c :: cs), leadingOf (c :: cs) operators with
        | some (expr, rest), _ => (line, .calc (String.ofList expr)) :: tokens fuel line rest
        | none, some (s, rest) =>
          if s == "|&" then
            (line, .redirect (some 2) ">&") :: (line, .word [.text ['1'] false]) :: (line, .op "|")
              :: tokens fuel line rest
          else (line, .op s) :: tokens fuel line rest
        | none, none =>
          match readWord (cs.length + 2) (c :: cs) with
          | .error quote => [(line, .unclosed quote)]
          | .ok (w, rest) =>
            let feeds := ((c :: cs).take (cs.length + 1 - rest.length)).count '\n'
            (line, .word w) :: tokens fuel (line + feeds) rest

end Shell

end Rehearsal

end Provisioning

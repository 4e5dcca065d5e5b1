import Provisioning.Text.Utf8
import Provisioning.Yaml.Cursor

/-!
# Reading the texts of scalars

Plain, quoted and block scalars, each from its first character on.  Over a line break, plain and
quoted scalars fold: one break is a space, more breaks are one less.
-/

namespace Provisioning

namespace Yaml

/-- How a scalar is written. -/
inductive Style where
  | plain
  | quoted
  | literal
  | folded
deriving DecidableEq, Repr

/-! ### Folding -/

/-- A text under way, and the blanks after it that may still belong to it.  All lists but `first`
are in reverse. -/
structure Fold where
  /-- The text so far. -/
  out : List Char := []
  /-- Spaces and tabs after it in the same line. -/
  gaps : List Char := []
  /-- The first line break after it. -/
  first : List Char := []
  /-- The further line breaks. -/
  breaks : List Char := []
  /-- Whether a line has ended since the text. -/
  broken : Bool := false

namespace Fold

/-- One more space or tab; those at the beginning of a line do not count. -/
def gap (f : Fold) (c : Char) : Fold :=
  if f.broken then f else { f with gaps := c :: f.gaps }

/-- One more line break; gaps before it do not count. -/
def newline (f : Fold) (c : Char) : Fold :=
  if f.broken then { f with breaks := readBreak c :: f.breaks }
  else { f with gaps := [], first := [readBreak c], broken := true }

/-- The text with what was pending after it, folded. -/
def join (f : Fold) : Fold :=
  if f.broken then
    let tail :=
      if f.first == ['\n'] then (if f.breaks.isEmpty then [' '] else f.breaks)
      else f.breaks ++ f.first
    { out := tail ++ f.out }
  else { out := f.gaps ++ f.out }

/-- One more character of the text. -/
def push (f : Fold) (c : Char) : Fold := { f with out := c :: f.out }

end Fold

/-- Reads spaces, tabs and line breaks.  At the beginning of a line, a tab left of column
`margin` is refused. -/
def readBlanks (margin : Int) : Nat → Cursor → Fold → Except Error (Cursor × Fold)
  | 0, c, f => .ok (c, f)
  | n + 1, c, f =>
    match c.peek 0 with
    | none => .ok (c, f)
    | some ch =>
      if isGap ch then
        if f.broken && ch == '\t' && (c.column : Int) < margin then .error (c.fault "indentation")
        else readBlanks margin n (c.skip 1) (f.gap ch)
      else if isBreak ch then readBlanks margin n c.skipBreak (f.newline ch)
      else .ok (c, f)

/-! ### Plain scalars -/

/-- Whether a character parts the entries of a flow collection. -/
def isFlowMark (c : Char) : Bool :=
  c == ',' || c == '[' || c == ']' || c == '\x7b' || c == '\x7d'

/-- Whether a colon comes next that ends a plain scalar. -/
def endsPlain (flow : Bool) (c : Cursor) : Bool :=
  (c.sees ':' 0 && c.seesBlank 1) || (flow && (c.peek 0).any isFlowMark)

/-- Reads the characters of a plain scalar up to a blank or to what ends it. -/
def readPlainRun (flow : Bool) : Nat → Cursor → Fold → Except Error (Cursor × Fold)
  | 0, c, f => .ok (c, f)
  | n + 1, c, f =>
    match c.peek 0 with
    | none => .ok (c, f)
    | some ch =>
      if isGap ch || isBreak ch then .ok (c, f)
      else if flow && ch == ':' && (c.peek 1).any (fun d => isFlowMark d || d == '?') then
        .error (c.fault "plain scalar")
      else if endsPlain flow c then .ok (c, f)
      else readPlainRun flow n (c.skip 1) (f.join.push ch)

/-- Reads the runs of a plain scalar.  `margin` is the least column of its further lines outside
of flow collections. -/
def readPlain (flow : Bool) (margin : Int) : Nat → Cursor → Fold → Except Error (Cursor × Fold)
  | 0, c, f => .ok (c, f)
  | n + 1, c, f =>
    if c.seesDocumentMark || c.sees '#' 0 then .ok (c, f)
    else do
      let (c, f) ← readPlainRun flow (n + 1) c f
      if !(c.seesGap || c.seesBreak) then return (c, f)
      let (c, f) ← readBlanks margin (n + 1) c f
      if !flow && (c.column : Int) < margin then return (c, f)
      readPlain flow margin n c f

/-! ### Quoted scalars -/

/-- The value of a hexadecimal digit. -/
def hexDigit? (c : Char) : Option Nat :=
  if '0' ≤ c && c ≤ '9' then some (c.toNat - '0'.toNat)
  else if 'a' ≤ c && c ≤ 'f' then some (c.toNat - 'a'.toNat + 10)
  else if 'A' ≤ c && c ≤ 'F' then some (c.toNat - 'A'.toNat + 10)
  else none

/-- The value of a run of hexadecimal digits. -/
def hexValue? (cs : List Char) : Option Nat :=
  cs.foldl (fun acc c => do return (← acc) * 16 + (← hexDigit? c)) (some 0)

/-- The character that a backslash and one character stand for. -/
def shortEscape? : Char → Option Char
  | '0' => some '\x00'
  | 'a' => some '\x07'
  | 'b' => some '\x08'
  | 't' => some '\t'
  | '\t' => some '\t'
  | 'n' => some '\n'
  | 'v' => some '\x0b'
  | 'f' => some '\x0c'
  | 'r' => some '\r'
  | 'e' => some '\x1b'
  | ' ' => some ' '
  | '"' => some '"'
  | '/' => some '/'
  | '\\' => some '\\'
  | 'N' => some '\u0085'
  | '_' => some '\u00a0'
  | 'L' => some '\u2028'
  | 'P' => some '\u2029'
  | _ => none

/-- The number of hexadecimal digits after a backslash and a letter. -/
def codeLength? : Char → Option Nat
  | 'x' => some 2
  | 'u' => some 4
  | 'U' => some 8
  | _ => none

/-- Reads what a backslash begins. -/
def readEscape (c : Cursor) : Except Error (Char × Cursor) :=
  match c.peek 1 with
  | none => .error (c.fault "escape")
  | some ch =>
    match shortEscape? ch, codeLength? ch with
    | some e, _ => .ok (e, c.skip 2)
    | none, some n =>
      let digits := (c.rest.drop 2).take n
      match (if digits.length = n then hexValue? digits else none) with
      | some code =>
        if h : code.isValidChar then .ok (Char.ofNatAux code h, c.skip (2 + n))
        else .error (c.fault "escape")
      | none => .error (c.fault "escape")
    | none, none => .error (c.fault "escape")

/-- Reads the characters of a quoted scalar up to a blank, to the closing quote, or past an escaped
line break. -/
def readQuotedRun (quote : Char) : Nat → Cursor → Fold → Except Error (Cursor × Fold)
  | 0, c, f => .ok (c, f)
  | n + 1, c, f =>
    match c.peek 0 with
    | none => .ok (c, f)
    | some ch =>
      if isGap ch || isBreak ch then .ok (c, f)
      else if ch == quote then
        if quote == '\'' && c.sees '\'' 1 then readQuotedRun quote n (c.skip 2) (f.push '\'')
        else .ok (c, f)
      else if quote == '"' && ch == '\\' then
        if (c.peek 1).any isBreak then .ok ((c.skip 1).skipBreak, { f with broken := true })
        else do
          let (e, c) ← readEscape c
          readQuotedRun quote n c (f.push e)
      else readQuotedRun quote n (c.skip 1) (f.push ch)

/-- Reads a quoted scalar after its opening quote, and the closing quote. -/
def readQuoted (quote : Char) : Nat → Cursor → Fold → Except Error (Cursor × Fold)
  | 0, c, _ => .error (c.fault "quoted scalar")
  | n + 1, c, f =>
    if c.seesDocumentMark || c.atEnd then .error (c.fault "quoted scalar")
    else do
      let (c, f) ← readQuotedRun quote (n + 1) c f
      if c.sees quote 0 then return (c.skip 1, f)
      let (c, f) ← readBlanks 0 (n + 1) c f
      readQuoted quote n c f.join

/-! ### Block scalars -/

/-- What becomes of the line breaks at the end of a block scalar. -/
inductive Chomp where
  | strip
  | clip
  | keep
deriving DecidableEq

/-- Reads the sign that tells what becomes of the last line breaks. -/
def readChomp (c : Cursor) : Option (Chomp × Cursor) :=
  if c.sees '+' 0 then some (.keep, c.skip 1)
  else if c.sees '-' 0 then some (.strip, c.skip 1)
  else none

/-- Reads the digit that tells the indentation; zero is refused. -/
def readIncrement (c : Cursor) : Except Error (Option Nat × Cursor) :=
  match c.peek 0 with
  | some d =>
    if d == '0' then .error (c.fault "block scalar")
    else if d.isDigit then .ok (some (d.toNat - '0'.toNat), c.skip 1)
    else .ok (none, c)
  | none => .ok (none, c)

/-- Reads the sign and the digit after the mark of a block scalar, in any order. -/
def readBlockHeader (c : Cursor) : Except Error (Chomp × Option Nat × Cursor) :=
  match readChomp c with
  | some (chomp, c) => do
    let (increment, c) ← readIncrement c
    return (chomp, increment, c)
  | none => do
    let (increment, c) ← readIncrement c
    match (if increment.isSome then readChomp c else none) with
    | some (chomp, c) => return (chomp, increment, c)
    | none => return (.clip, increment, c)

/-- Reads the indentation and the empty lines before a line of a block scalar.  The indentation is
zero while it is not known.  Gives the breaks in reverse and the widest indentation seen. -/
def readIndent (indent : Nat) :
    Nat → Cursor → List Char → Nat → Except Error (Cursor × List Char × Nat)
  | 0, c, breaks, widest => .ok (c, breaks, widest)
  | n + 1, c, breaks, widest =>
    let spaces := (c.rest.takeWhile (· == ' ')).length
    let c := c.skip (if indent = 0 then spaces else min spaces (indent - c.column))
    let widest := max widest c.column
    if (indent = 0 || c.column < indent) && c.sees '\t' 0 then .error (c.fault "indentation")
    else
      match c.peek 0 with
      | some ch =>
        if isBreak ch then readIndent indent n c.skipBreak (readBreak ch :: breaks) widest
        else .ok (c, breaks, widest)
      | none => .ok (c, breaks, widest)

/-- A block scalar under way.  All lists are in reverse. -/
structure Block where
  /-- The text so far. -/
  out : List Char := []
  /-- The break of its last line. -/
  last : List Char := []
  /-- The empty lines after it. -/
  breaks : List Char := []
  /-- Whether its last line begins with a blank. -/
  blank : Bool := false

/-- Reads the lines of a block scalar at an indentation. -/
def readBlockLines (literal : Bool) (indent : Nat) :
    Nat → Cursor → Block → Except Error (Cursor × Block)
  | 0, c, b => .ok (c, b)
  | n + 1, c, b =>
    if c.column != indent || c.atEnd then .ok (c, b)
    else
      let blank := c.seesGap
      let folds := !literal && b.last == ['\n'] && !b.blank && !blank
      let sep := if folds then (if b.breaks.isEmpty then [' '] else []) else b.last
      let (line, c) := c.takeWhile fun ch => !isBreak ch
      let out := line.reverse ++ (b.breaks ++ (sep ++ b.out))
      let (last, c) :=
        match c.peek 0 with
        | some ch => ([readBreak ch], c.skipBreak)
        | none => ([], c)
      do
        let (c, breaks, _) ← readIndent indent (n + 1) c [] 0
        readBlockLines literal indent n c { out, last, breaks, blank }

/-- Reads a block scalar after its mark.  `outer` is the indentation around it, −1 at the top. -/
def readBlock (literal : Bool) (outer : Int) (c : Cursor) :
    Except Error (List Char × Cursor) := do
  let (chomp, increment, c) ← readBlockHeader c
  let c := (c.dropWhile isGap).skipComment
  if !c.seesLineEnd then throw (c.fault "block scalar")
  let c := if c.atEnd then c else c.skipBreak
  let given := match increment with
    | some n => if 0 ≤ outer then outer.toNat + n else n
    | none => 0
  let (c, breaks, widest) ← readIndent given (c.rest.length + 1) c [] 0
  let indent := if given = 0 then max widest (max (outer + 1).toNat 1) else given
  let (c, b) ← readBlockLines literal indent (c.rest.length + 1) c { breaks }
  let tail := match chomp with
    | .strip => []
    | .clip => b.last
    | .keep => b.breaks ++ b.last
  return ((tail ++ b.out).reverse, c)

end Yaml

end Provisioning

import Provisioning.Digest.Sha256
import Provisioning.Rehearsal.Tool.Desk
import Provisioning.Text.Base64
import Provisioning.Text.Blank

/-!
# Tools that work on streams

Each reads its input or some files and prints what it makes of them.
-/

namespace Provisioning

namespace Rehearsal

namespace Tool

open Work

/-- The lines of bytes, each with its line feed, which the last one may lack. -/
def lineList (bytes : List UInt8) : List (List UInt8) :=
  let (under, done) := bytes.foldl (fun (under, done) b =>
    if b == 10 then ([], (b :: under).reverse :: done) else (b :: under, done))
    (([], []) : List UInt8 × List (List UInt8))
  (if under.isEmpty then done else under.reverse :: done).reverse

/-- Lines without their line feeds, as texts. -/
def textLines (bytes : List UInt8) : List String :=
  (lineList bytes).map fun l => Utf8.decode (if l.getLast? == some 10 then l.dropLast else l)

/-- How many bytes are taken from what never ends. -/
def endless : Nat := 2097152

/-- What a tool reads under a name; `-` is the input. -/
def source (name : String) : Work (Except FileError (List UInt8)) := do
  let d ← get
  if name == "-" || name == "/dev/stdin" then
    set { d with input := [] }
    return .ok d.input
  else if name == "/dev/zero" then return .ok (List.replicate endless 0)
  else return d.files.read d.cwd name

/-- The bytes of all files, or of the input if there are none.  What cannot be read is complained
of. -/
def gather (tool : String) (names : List String) : Work (List UInt8 × Nat) :=
  (if names.isEmpty then ["-"] else names).foldlM (fun (bytes, code) name => do
    match ← source name with
    | .ok more => return (bytes ++ more, code)
    | .error e =>
      complain (tool ++ ": " ++ mentioned name ++ ": " ++ e.message)
      return (bytes, 1)) ([], 0)

/-- A tool that prints what it makes of the lines that it reads. -/
def filter (name flags values : String) (make : Options → List String → List String) : Tool :=
  withOptions name flags values [] 1 fun o => do
    let (bytes, code) ← gather name o.operands
    (make o (textLines bytes)).forM sayLine
    return code

/-- Prints files one after another. -/
def cat : Tool := withOptions "cat" "unA" "" [] 1 fun o =>
  forAll (if o.operands.isEmpty then ["-"] else o.operands) fun name => do
    match ← source name with
    | .error e => fail 1 ("cat: " ++ mentioned name ++ ": " ++ e.message)
    | .ok bytes =>
      if o.has 'n' then
        let lines := lineList bytes
        ((List.range lines.length).zip lines).forM fun (i, l) =>
          sayBytes (textBytes (Decimal.padded 6 (i + 1) ++ "\t") ++ l)
      else sayBytes bytes
      return 0

/-- Which part of a stream is wanted. -/
inductive Extent where
  /-- So many from the beginning. -/
  | first (n : Nat)
  /-- All but so many at the end. -/
  | butLast (n : Nat)
  /-- So many at the end. -/
  | last (n : Nat)
  /-- All from that one on, counted from 1. -/
  | since (n : Nat)

/-- The wanted part of a list. -/
def Extent.of {α : Type} (xs : List α) : Extent → List α
  | first n => xs.take n
  | butLast n => xs.take (xs.length - n)
  | last n => xs.drop (xs.length - n)
  | since n => xs.drop (n - 1)

/-- The extent that a number with a sign stands for. -/
def Extent.ofText? (atEnd : Bool) (s : String) : Option Extent :=
  match s.toList with
  | '-' :: cs => (Decimal.readNat cs).map fun n => if atEnd then last n else butLast n
  | '+' :: cs => (Decimal.readNat cs).map fun n => if atEnd then since n else first n
  | cs => (Decimal.readNat cs).map fun n => if atEnd then last n else first n

/-- Writes a number given as an option out as the option for lines. -/
def spellLines : List String → List String
  | [] => []
  | a :: args =>
    match a.toList with
    | '-' :: c :: cs =>
      if c.isDigit then "-n" :: String.ofList (c :: cs) :: args else a :: spellLines args
    | _ => a :: spellLines args

/-- Prints a part of each file. -/
def part (name : String) (atEnd : Bool) (args : List String) : Work Nat :=
  withOptions name "qv" "nc" [] 1 (fun o => do
    let byBytes := o.has 'c'
    let number := ((o.value? 'c').or (o.value? 'n')).getD "10"
    match Extent.ofText? atEnd number with
    | none =>
      fail 1 (name ++ ": invalid number of " ++ (if byBytes then "bytes" else "lines") ++ ": "
        ++ shown number)
    | some extent =>
      let names := if o.operands.isEmpty then ["-"] else o.operands
      let header (i : Nat) (name : String) : Work Unit :=
        if names.length ≤ 1 then pure ()
        else say ((if i == 0 then "" else "\n") ++ "==> "
          ++ (if name == "-" then "standard input" else name) ++ " <==\n")
      forAll ((List.range names.length).zip names) fun (i, file) => do
        match ← source file with
        | .error .isDirectory =>
          header i file
          fail 1 (name ++ ": error reading " ++ shown file ++ ": " ++ FileError.isDirectory.message)
        | .error e =>
          fail 1 (name ++ ": cannot open " ++ shown file ++ " for reading: " ++ e.message)
        | .ok bytes =>
          header i file
          sayBytes (if byBytes then extent.of bytes else (extent.of (lineList bytes)).flatten)
          return 0) (spellLines args)

/-- Counts lines, words and bytes. -/
def wc : Tool := withOptions "wc" "lwcm" "" [] 1 fun o => do
  let wanted (c : Char) : Bool := o.has c || o.given.isEmpty && c != 'm'
  let isGap (b : UInt8) : Bool := b == 32 || (9 ≤ b && b ≤ 13)
  let words (bytes : List UInt8) : Nat :=
    (bytes.foldl (fun (n, inWord) b =>
      if isGap b then (n, false) else (if inWord then n else n + 1, true)) (0, false)).1
  let counts (bytes : List UInt8) : List Nat :=
    [('l', bytes.count 10), ('w', words bytes), ('m', (Utf8.decodeChars bytes).length),
      ('c', bytes.length)].filterMap fun (c, n) => if wanted c then some n else none
  let names := if o.operands.isEmpty then ["-"] else o.operands
  let d ← get
  let sizes := names.map fun name =>
    match d.files.read d.cwd name with
    | .ok bytes => bytes.length
    | .error _ => 0
  let width :=
    if o.operands.isEmpty || o.operands.contains "-" then 7
    else (toString (sizes.foldl (· + ·) 0)).length
  let single := (counts []).length == 1 && names.length == 1
  let line (ns : List Nat) (name : String) : Work Unit :=
    sayLine (Text.join " " (ns.map fun n => if single then toString n else Decimal.padded width n)
      ++ (if o.operands.isEmpty then "" else " " ++ name))
  let (total, code) ← names.foldlM (fun (total, code) name => do
    match ← source name with
    | .error e =>
      complain ("wc: " ++ mentioned name ++ ": " ++ e.message)
      return (total, 1)
    | .ok bytes =>
      line (counts bytes) name
      return (total.zipWith (· + ·) (counts bytes), code)) ((counts []).map fun _ => 0, 0)
  if 1 < names.length then line total "total"
  return code

/-- Arguments with the sign that no option follows before the first negative number. -/
def protectNumbers : List String → List String
  | [] => []
  | a :: args =>
    match a.toList with
    | '-' :: c :: _ => if c.isDigit then "--" :: a :: args else a :: protectNumbers args
    | _ => a :: protectNumbers args

/-- Prints numbers in sequence. -/
def seq : Tool := fun args => withOptions "seq" "w" "s" [] 1 (fun o => do
  match o.operands.mapM fun a => Decimal.readInt a.toList with
  | none =>
    let bad := (o.operands.find? fun a => (Decimal.readInt a.toList).isNone).getD ""
    misused "seq" 1 ("invalid floating point argument: " ++ shown bad)
  | some ns =>
    let bounds? : Option (Int × Int × Int) := match ns with
      | [b] => some (1, 1, b)
      | [a, b] => some (a, 1, b)
      | [a, step, b] => some (a, step, b)
      | _ => none
    match bounds? with
    | none =>
      if ns.isEmpty then misused "seq" 1 "missing operand"
      else misused "seq" 1 ("extra operand " ++ shown (o.operands.getD 3 ""))
    | some (a, step, b) =>
      if step == 0 then
        misused "seq" 1 ("invalid Zero increment value: " ++ shown (o.operands.getD 1 ""))
      else
        let n := ((b - a) / step + 1).toNat
        let numbers := (List.range n).map fun (i : Nat) => toString (a + step * i)
        let width := (numbers.map String.length).foldl max 0
        let padded := numbers.map fun s =>
          if o.has 'w' then String.ofList (List.replicate (width - s.length) '0') ++ s else s
        if n != 0 then sayLine (((o.value? 's').getD "\n").intercalate padded)
        return 0) (protectNumbers args)

/-- The number that a line begins with. -/
def leadingNumber (l : String) : Int :=
  match (l.toList.dropWhile (· == ' ')) with
  | '-' :: cs => -(((Decimal.readNat (cs.takeWhile Char.isDigit)).getD 0 : Nat) : Int)
  | cs => (Decimal.readNat (cs.takeWhile Char.isDigit)).getD 0

/-- Sorts lines. -/
def sort : Tool := withOptions "sort" "rnu" "" [] 2 fun o => do
  let (bytes, code) ← gather "sort: cannot read" o.operands
  let lines := textLines bytes
  let le (a b : String) : Bool :=
    if o.has 'n' && leadingNumber a != leadingNumber b then leadingNumber a < leadingNumber b
    else a ≤ b
  let sorted := lines.mergeSort le
  let sorted := if o.has 'u' then sorted.eraseDups else sorted
  if code == 0 then (if o.has 'r' then sorted.reverse else sorted).forM sayLine
  return 2 * code

/-- Leaves one of equal lines in a row. -/
def uniq : Tool := filter "uniq" "cdu" "" fun o lines =>
  let runs := lines.foldr (fun l runs =>
    match runs with
    | (m, n) :: rest => if l == m then (m, n + 1) :: rest else (l, 1) :: runs
    | [] => [(l, 1)]) ([] : List (String × Nat))
  let wanted := runs.filter fun (_, n) => (!o.has 'd' || 1 < n) && (!o.has 'u' || n == 1)
  wanted.map fun (l, n) => if o.has 'c' then Decimal.padded 7 n ++ " " ++ l else l

/-- The characters of a set such as `a-z`. -/
def charSet : List Char → List Char
  | '\\' :: 'n' :: cs => '\n' :: charSet cs
  | '\\' :: 't' :: cs => '\t' :: charSet cs
  | '\\' :: '0' :: cs => '\x00' :: charSet cs
  | '\\' :: '\\' :: cs => '\\' :: charSet cs
  | a :: '-' :: b :: cs =>
    (List.range (b.toNat + 1 - a.toNat)).map (fun i => Char.ofNat (a.toNat + i)) ++ charSet cs
  | c :: cs => c :: charSet cs
  | [] => []

/-- The characters of a set, which may be a class by name. -/
def namedSet (s : String) : List Char :=
  match s with
  | "[:lower:]" => charSet "a-z".toList
  | "[:upper:]" => charSet "A-Z".toList
  | "[:digit:]" => charSet "0-9".toList
  | "[:space:]" => [' ', '\t', '\n', '\r', '\x0b', '\x0c']
  | _ => charSet s.toList

/-- Replaces or deletes characters. -/
def tr : Tool := withOptions "tr" "dsc" "" [] 1 fun o => do
  let (bytes, code) ← gather "tr" []
  let set := namedSet (o.operands.getD 0 "")
  let inSet (c : Char) : Bool := set.contains c != o.has 'c'
  let chars := Utf8.decodeChars bytes
  let others := namedSet (o.operands.getD 1 "")
  let replaced (c : Char) : Char :=
    match set.idxOf? c with
    | some i => (others[i]? <|> others.getLast?).getD c
    | none => if o.has 'c' then others.getLast?.getD c else c
  let chars :=
    if o.has 'd' then chars.filter (!inSet ·)
    else if others.isEmpty then chars
    else chars.map replaced
  let squeezed := if others.isEmpty then set else others
  let chars :=
    if o.has 's' then
      (chars.foldl (fun kept c =>
        if kept.head? == some c && squeezed.contains c then kept else c :: kept) []).reverse
    else chars
  say (String.ofList chars)
  return code

/-- The numbers of a list such as `1,3-5`; an open end goes far. -/
def numberList (s : String) : List (Nat × Nat) :=
  (Text.splitOn ',' s.toList).filterMap fun item =>
    match Text.cut ['-'] item with
    | none => (Decimal.readNat item).map fun n => (n, n)
    | some (a, b) => some ((Decimal.readNat a).getD 1, (Decimal.readNat b).getD 1000000)

/-- The elements of a list whose numbers, counted from 1, are wanted. -/
def chosen {α : Type} (wanted : List (Nat × Nat)) (xs : List α) : List α :=
  ((List.range xs.length).zip xs).filterMap fun (i, x) =>
    if wanted.any fun (a, b) => a ≤ i + 1 && i + 1 ≤ b then some x else none

/-- Prints parts of lines. -/
def cut : Tool := filter "cut" "s" "dfcb" fun o lines =>
  lines.map fun l =>
    match (o.value? 'c').or (o.value? 'b') with
    | some wanted => String.ofList (chosen (numberList wanted) l.toList)
    | none =>
      let sep := ((o.value? 'd').getD "\t").toList.head?.getD '\t'
      let fields := Text.splitOn sep l.toList
      if fields.length == 1 then l
      else
        Text.join sep.toString
          ((chosen (numberList ((o.value? 'f').getD "")) fields).map String.ofList)

/-- Prints only lines that hold a text, or only those that do not. -/
def grep : Tool := withOptions "grep" "qvciFnxhsE" "e" [] 2 fun o => do
  let pattern? := o.value? 'e'
  let names := if pattern?.isSome then o.operands else o.operands.drop 1
  match pattern?.or o.operands.head? with
  | none =>
    complain "Usage: grep [OPTION]... PATTERNS [FILE]..."
    fail 2 "Try 'grep --help' for more information."
  | some pattern =>
    let fold (s : String) : List Char :=
      if o.has 'i' then s.toList.map Char.toLower else s.toList
    let atStart := !o.has 'F' && pattern.toList.head? == some '^'
    let pattern := if atStart then fold (String.ofList pattern.toList.tail) else fold pattern
    let atEnd := !o.has 'F' && pattern.getLast? == some '$'
    let pattern := if atEnd then pattern.dropLast else pattern
    let holds (l : String) : Bool :=
      let l := fold l
      if o.has 'x' || (atStart && atEnd) then l == pattern
      else if atStart then pattern.isPrefixOf l
      else if atEnd then pattern.reverse.isPrefixOf l.reverse
      else Text.contains pattern l
    let (bytes, code) ← gather "grep" names
    let lines := textLines bytes
    let found := ((List.range lines.length).zip lines).filter fun (_, l) => holds l != o.has 'v'
    if o.has 'q' then pure ()
    else if o.has 'c' then sayLine (toString found.length)
    else
      found.forM fun (i, l) => sayLine ((if o.has 'n' then toString (i + 1) ++ ":" else "") ++ l)
    return if code != 0 then 2 else if found.isEmpty then 1 else 0

/-- Writes lines of at most so many characters. -/
def wrapped (width : Nat) : (fuel : Nat) → List Char → List (List Char)
  | 0, _ | _, [] => []
  | fuel + 1, cs => (cs.take width ++ ['\n']) :: wrapped width fuel (cs.drop width)

/-- Writes bytes as base64 or reads them back. -/
def base64 : Tool :=
  withOptions "base64" "di" "w" [("decode", 'd')] 1 fun o => do
    let (bytes, code) ← gather "base64" o.operands
    if o.has 'd' then
      match Base64.decode ((Utf8.decodeChars bytes).filter (· != '\n')) with
      | some bytes =>
        sayBytes bytes
        return code
      | none => fail 1 "base64: invalid input"
    else
      let text := Base64.encode bytes
      match Decimal.readNat ((o.value? 'w').getD "76").toList with
      | some 0 => say (String.ofList text)
      | width? => say (String.ofList (wrapped (width?.getD 76) (text.length + 1) text).flatten)
      return code

/-- Prints a line again and again.  Whoever reads it is taken to stop in time. -/
def yes : Tool := fun args => do
  let line := Text.join " " (if args.isEmpty then ["y"] else args) ++ "\n"
  let bytes := textBytes line
  sayBytes (List.replicate (endless / bytes.length + 1) bytes).flatten
  return 0

/-- Prints the checksums of files. -/
def sha256sum : Tool := withOptions "sha256sum" "b" "" [] 1 fun o =>
  forAll (if o.operands.isEmpty then ["-"] else o.operands) fun name => do
    match ← source name with
    | .error e => fail 1 ("sha256sum: " ++ mentioned name ++ ": " ++ e.message)
    | .ok bytes =>
      sayLine (Sha256.hex (Sha256.digest bytes) ++ "  " ++ name)
      return 0

/-- The tools that work on streams, by name. -/
def streamTools : List (String × Tool) :=
  [("cat", cat), ("head", part "head" false), ("tail", part "tail" true), ("wc", wc),
    ("seq", seq), ("sort", sort), ("uniq", uniq), ("tr", tr), ("cut", cut), ("grep", grep),
    ("base64", base64), ("yes", yes), ("sha256sum", sha256sum),
    ("rev", filter "rev" "" "" fun _ ls => ls.map fun l => String.ofList l.toList.reverse),
    ("tac", filter "tac" "" "" fun _ ls => ls.reverse)]

end Tool

end Rehearsal

end Provisioning

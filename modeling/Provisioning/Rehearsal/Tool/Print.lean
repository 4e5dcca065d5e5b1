import Provisioning.Rehearsal.Shell.Escape
import Provisioning.Rehearsal.Tool.Desk
import Provisioning.Shell.Word

/-!
# Printing and testing

What a shell does itself without starting a program: `echo`, `printf` and `test`.
-/

namespace Provisioning

namespace Rehearsal

namespace Tool

open Work

/-- Prints its arguments. -/
def echo : Tool := fun args => do
  let isFlag (a : String) : Bool :=
    match a.toList with
    | '-' :: c :: cs => (c :: cs).all fun c => c == 'n' || c == 'e' || c == 'E'
    | _ => false
  let flags := ((args.takeWhile isFlag).flatMap fun a => a.toList.drop 1)
  let text := Text.join " " (args.dropWhile isFlag)
  let tail := if flags.contains 'n' then "" else "\n"
  if (flags.filter (· != 'n')).getLast? == some 'e' then
    let (bytes, ended) := Shell.unescaped true (text.length + 1) text.toList
    sayBytes bytes
    if !ended then say tail
  else say (text ++ tail)
  return 0

/-! ### Formats -/

/-- How an argument is printed. -/
structure Conversion where
  /-- Its signs. -/
  flags : List Char
  /-- The least width. -/
  width : Nat
  /-- The number of digits or characters, if it is set. -/
  precision? : Option Nat
  /-- The letter. -/
  letter : Char

/-- A piece of a format. -/
inductive FormatPiece where
  /-- Bytes that are printed as they are. -/
  | plain (bytes : List UInt8)
  /-- An argument. -/
  | argument (c : Conversion)
  /-- A sign of an argument without a letter. -/
  | lonely

/-- The pieces of a format. -/
def formatPieces : (fuel : Nat) → List Char → List FormatPiece
  | 0, _ | _, [] => []
  | fuel + 1, '\\' :: '"' :: cs => .plain [34] :: formatPieces fuel cs
  | fuel + 1, '\\' :: '\'' :: cs => .plain [39] :: formatPieces fuel cs
  | fuel + 1, '\\' :: cs =>
    match Shell.escape? false cs with
    | none => []
    | some (bytes, rest) => .plain bytes :: formatPieces fuel rest
  | fuel + 1, '%' :: '%' :: cs => .plain [37] :: formatPieces fuel cs
  | _ + 1, ['%'] => [.lonely]
  | fuel + 1, '%' :: cs =>
    let isFlag (c : Char) : Bool := c == '-' || c == '+' || c == ' ' || c == '0' || c == '#'
    let flags := cs.takeWhile isFlag
    let cs := cs.dropWhile isFlag
    let width := (Decimal.readNat (cs.takeWhile Char.isDigit)).getD 0
    let cs := cs.dropWhile Char.isDigit
    let (precision?, cs) := match cs with
      | '.' :: cs =>
        (some ((Decimal.readNat (cs.takeWhile Char.isDigit)).getD 0), cs.dropWhile Char.isDigit)
      | _ => (none, cs)
    match cs with
    | letter :: cs => .argument ⟨flags, width, precision?, letter⟩ :: formatPieces fuel cs
    | [] => []
  | fuel + 1, c :: cs => .plain (Utf8.encode [c]) :: formatPieces fuel cs

/-- The number that an argument spells, and whether all of it is one. -/
def argumentNumber (s : String) : Int × Bool :=
  let magnitude (cs : List Char) : Int × Bool :=
    match cs with
    | '0' :: 'x' :: cs | '0' :: 'X' :: cs =>
      ((Shell.digitsValue 16 (cs.takeWhile Shell.isHex) : Nat), cs.all Shell.isHex)
    | '0' :: cs => ((Shell.digitsValue 8 (cs.takeWhile Shell.isOctal) : Nat), cs.all Shell.isOctal)
    | cs =>
      let digits := cs.takeWhile Char.isDigit
      ((Shell.digitsValue 10 digits : Nat), !cs.isEmpty && digits.length == cs.length)
  match s.toList.dropWhile (· == ' ') with
  | [] => (0, s.isEmpty)
  | '-' :: cs =>
    let (n, whole) := magnitude cs
    (-n, whole)
  | '+' :: cs => magnitude cs
  | '\'' :: c :: _ | '"' :: c :: _ => (c.toNat, true)
  | cs => magnitude cs

/-- A text in the width of a conversion. -/
def Conversion.pad (c : Conversion) (numeric : Bool) (bytes : List UInt8) : List UInt8 :=
  let n := c.width - bytes.length
  if c.flags.contains '-' then bytes ++ List.replicate n 32
  else if numeric && c.flags.contains '0' && c.precision?.isNone then
    match bytes with
    | 45 :: digits => 45 :: (List.replicate n 48 ++ digits)
    | _ => List.replicate n 48 ++ bytes
  else List.replicate n 32 ++ bytes

/-- A number in the form of a conversion. -/
def Conversion.number (c : Conversion) (n : Int) : List UInt8 :=
  let unsigned := if n < 0 then (Int.pow 2 64 + n).toNat else n.toNat
  let digits : List Char := match c.letter with
    | 'x' => Nat.toDigits 16 unsigned
    | 'X' => (Nat.toDigits 16 unsigned).map Char.toUpper
    | 'o' => Nat.toDigits 8 unsigned
    | 'u' => Nat.toDigits 10 unsigned
    | _ => Nat.toDigits 10 n.natAbs
  let digits := List.replicate ((c.precision?.getD 0) - digits.length) '0' ++ digits
  let signed := c.letter == 'd' || c.letter == 'i'
  let sign : List Char :=
    if signed && n < 0 then ['-']
    else if signed && c.flags.contains '+' then ['+']
    else if signed && c.flags.contains ' ' then [' ']
    else if c.flags.contains '#' && c.letter == 'x' then ['0', 'x']
    else []
  c.pad true (Utf8.encode (sign ++ digits))

/-- Prints the pieces of a format once; gives the arguments left over, the exit code and whether
all printing ends. -/
def printPieces (speaker : String) : List FormatPiece → List String →
    Work (List String × Nat × Bool)
  | [], args => return (args, 0, false)
  | .plain bytes :: ps, args => do
    sayBytes bytes
    printPieces speaker ps args
  | .lonely :: _, _ => do
    complain (speaker ++ "printf: \x60%': missing format character")
    return ([], 1, true)
  | .argument c :: ps, args => do
    let arg := args.head?.getD ""
    let cut (s : String) : String := match c.precision? with
      | some n => String.ofList (s.toList.take n)
      | none => s
    if c.letter == 's' then
      sayBytes (c.pad false (textBytes (cut arg)))
      printPieces speaker ps args.tail
    else if c.letter == 'q' then
      sayBytes (c.pad false (textBytes (Shell.escapedWord arg)))
      printPieces speaker ps args.tail
    else if c.letter == 'c' then
      sayBytes (c.pad false (Utf8.encode (arg.toList.take 1)))
      printPieces speaker ps args.tail
    else if c.letter == 'b' then
      let (bytes, ended) := Shell.unescaped true (arg.length + 1) arg.toList
      sayBytes (c.pad false bytes)
      if ended then return ([], 0, true) else printPieces speaker ps args.tail
    else if ['d', 'i', 'u', 'x', 'X', 'o'].contains c.letter then
      let (n, whole) := argumentNumber arg
      if !whole then complain (speaker ++ "printf: " ++ arg ++ ": invalid number")
      sayBytes (c.number n)
      let (args, code, ended) ← printPieces speaker ps args.tail
      return (args, if whole then code else 1, ended)
    else
      complain (speaker ++ "printf: \x60" ++ c.letter.toString ++ "': invalid format character")
      return ([], 1, true)

/-- Whether a piece takes an argument. -/
def FormatPiece.takesArgument : FormatPiece → Bool
  | .argument _ => true
  | _ => false

/-- Prints a format again and again until the arguments are used up. -/
def printAll (speaker : String) (pieces : List FormatPiece) : (fuel : Nat) → List String → Work Nat
  | 0, _ => return 0
  | fuel + 1, args => do
    let (rest, code, ended) ← printPieces speaker pieces args
    if ended || rest.isEmpty || !pieces.any FormatPiece.takesArgument then return code
    else return max code (← printAll speaker pieces fuel rest)

/-- Prints arguments by a format. -/
def printf (speaker : String) : Tool := fun args =>
  match if args.head? == some "--" then args.tail else args with
  | [] => do
    complain "printf: usage: printf [-v var] format [arguments]"
    return 2
  | format :: args => printAll speaker (formatPieces (format.length + 1) format.toList)
    (args.length + 1) args

/-! ### Tests -/

/-- What is wrong with a test. -/
inductive TestFault where
  | notNumber (word : String)
  | notUnary (word : String)
  | notBinary (word : String)
  | tooMany

/-- What is said of the fault. -/
def TestFault.message : TestFault → String
  | notNumber w => w ++ ": integer expression expected"
  | notUnary w => w ++ ": unary operator expected"
  | notBinary w => w ++ ": binary operator expected"
  | tooMany => "too many arguments"

/-- Whether something holds of one operand. -/
def unary? (d : Desk) (op operand : String) : Option Bool :=
  let entry? := (d.files.find d.cwd operand).toOption.map Prod.snd
  let isFile := match entry? with
    | some (.file _) => true
    | _ => false
  let isDirectory := match entry? with
    | some .directory => true
    | _ => false
  let isFilled := match entry? with
    | some (.file bytes) => !bytes.isEmpty
    | some .directory => true
    | none => false
  match op with
  | "-n" => some !operand.isEmpty
  | "-z" => some operand.isEmpty
  | "-f" => some isFile
  | "-d" => some isDirectory
  | "-s" => some isFilled
  | "-e" | "-a" | "-r" | "-w" => some entry?.isSome
  | "-x" => some isDirectory
  | "-L" | "-h" | "-b" | "-c" | "-p" | "-S" | "-t" | "-u" | "-g" | "-k" => some false
  | "-v" => some (d.environment.lookup operand).isSome
  | _ => none

/-- The number that an operand spells. -/
def testNumber (s : String) : Except TestFault Int :=
  match Decimal.readInt (s.toList.dropWhile (· == ' ')) with
  | some n => .ok n
  | none => .error (.notNumber s)

/-- Whether something holds of two operands; none if there is no such test. -/
def binary? (a op b : String) : Option (Except TestFault Bool) :=
  let numbers (f : Int → Int → Bool) : Option (Except TestFault Bool) :=
    some do return f (← testNumber a) (← testNumber b)
  match op with
  | "=" | "==" => some (.ok (a == b))
  | "!=" => some (.ok (a != b))
  | "<" => some (.ok (a < b))
  | ">" => some (.ok (b < a))
  | "-eq" => numbers (· == ·)
  | "-ne" => numbers (· != ·)
  | "-lt" => numbers (· < ·)
  | "-le" => numbers (· ≤ ·)
  | "-gt" => numbers fun a b => b < a
  | "-ge" => numbers fun a b => b ≤ a
  | _ => none

/-- Whether a test holds. -/
def holds (d : Desk) : (fuel : Nat) → List String → Except TestFault Bool
  | 0, _ => .error .tooMany
  | _, [] => .ok false
  | _, [a] => .ok !a.isEmpty
  | fuel + 1, [op, a] =>
    if op == "!" then .ok a.isEmpty
    else
      match unary? d op a with
      | some b => .ok b
      | none => if fuel == 0 then .error .tooMany else .error (.notUnary op)
  | fuel + 1, args =>
    let joined? : Option (String × List String × List String) :=
      (Text.cut ["-o"] args).map (fun (a, b) => ("-o", a, b))
        <|> (Text.cut ["-a"] args).map fun (a, b) => ("-a", a, b)
    let direct? := match args with
      | [a, op, b] => binary? a op b
      | _ => none
    match direct?, joined?, args with
    | some result, _, _ => result
    | none, some (sign, a :: as, b :: bs), _ => do
      let first ← holds d fuel (a :: as)
      let second ← holds d fuel (b :: bs)
      return if sign == "-o" then first || second else first && second
    | _, _, "!" :: rest => (holds d fuel rest).map (!·)
    | _, _, "(" :: rest =>
      if rest.getLast? == some ")" then holds d fuel rest.dropLast else .error .tooMany
    | _, _, [_, op, _] => .error (.notBinary op)
    | _, _, _ => .error .tooMany

/-- Ends well if a test holds.  Under the name `[` the last argument closes it. -/
def test (speaker name : String) : Tool := fun args => do
  let (args, closed) := match name with
    | "[" => (args.dropLast, args.getLast? == some "]")
    | "[[" => (args.dropLast, args.getLast? == some "]]")
    | _ => (args, true)
  if !closed then fail 2 (speaker ++ name ++ ": missing \x60]'")
  else
    match holds (← get) (args.length + 2) args with
    | .ok b => return if b then 0 else 1
    | .error e => fail 2 (speaker ++ name ++ ": " ++ e.message)

end Tool

end Rehearsal

end Provisioning

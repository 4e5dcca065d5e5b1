import Provisioning.Event.Basic
import Provisioning.Rehearsal.Files
import Provisioning.Text.Decimal

/-!
# What a tool works on

A tool gets arguments and input, sees and changes files, prints to two streams and ends with an
exit code.  `Options.read` takes arguments apart as most tools do.
-/

namespace Provisioning

namespace Rehearsal

/-- What lies before a tool while it works. -/
structure Desk where
  /-- The files. -/
  files : Files
  /-- The working directory. -/
  cwd : Place
  /-- The input. -/
  input : List UInt8 := []
  /-- The variables that the tool gets. -/
  environment : List (String × String) := []
  /-- What has been printed, latest first. -/
  printed : List (Origin × List UInt8) := []

/-- A step of a tool's work. -/
abbrev Work := StateM Desk

/-- A tool: its work with some arguments gives the exit code. -/
abbrev Tool := List String → Work Nat

namespace Work

/-- Prints bytes. -/
def sayBytes (bytes : List UInt8) : Work Unit :=
  modify fun d => { d with printed := (.stdout, bytes) :: d.printed }

/-- Prints a text. -/
def say (s : String) : Work Unit := sayBytes (textBytes s)

/-- Prints a line. -/
def sayLine (s : String) : Work Unit := say (s ++ "\n")

/-- Complains in a line. -/
def complain (s : String) : Work Unit :=
  modify fun d => { d with printed := (.stderr, textBytes (s ++ "\n")) :: d.printed }

/-- Complains in a line, and ends with an exit code. -/
def fail (code : Nat) (s : String) : Work Nat := do
  complain s
  return code

/-- Complains of how a tool is called, in a line that the tool's help follows up. -/
def misused (tool : String) (code : Nat) (s : String) : Work Nat := do
  complain (tool ++ ": " ++ s)
  fail code ("Try '" ++ tool ++ " --help' for more information.")

/-- Changes the files. -/
def setFiles (fs : Files) : Work Unit := modify fun d => { d with files := fs }

/-- Does work for each of some things; the exit code is the greatest. -/
def forAll {α : Type} (xs : List α) (f : α → Work Nat) : Work Nat :=
  xs.foldlM (fun code x => return max code (← f x)) 0

end Work

/-- A name as most tools show it in complaints: as a word in quotes. -/
def shown (name : String) : String :=
  if name.toList.contains '\'' then "\"" ++ name ++ "\"" else "'" ++ name ++ "'"

/-- A name as the tools show it that print files: in quotes only where a shell needs them, or a
colon would mislead. -/
def mentioned (name : String) : String :=
  let special := " !\"$&'()*:;<=>?[^|\\\t\n".toList
  if name.isEmpty || name.toList.any special.contains then shown name else name

/-- A name as a few tools show it: in quotes, with all but visible characters written out. -/
def spelledOut (name : String) : String :=
  let octal (b : UInt8) : String :=
    "\\" ++ toString (b.toNat / 64) ++ toString (b.toNat / 8 % 8) ++ toString (b.toNat % 8)
  let spell (b : UInt8) : String :=
    if b == 39 then "\\'"
    else if b == 92 then "\\\\"
    else if b == 10 then "\\n"
    else if 32 ≤ b && b < 127 then (Char.ofNat b.toNat).toString
    else octal b
  "'" ++ String.join ((textBytes name).map spell) ++ "'"

/-! ### Options -/

/-- The arguments of a tool, taken apart. -/
structure Options where
  /-- The letters given, each with its value, which is empty for one that takes none. -/
  given : List (Char × String) := []
  /-- The other arguments. -/
  operands : List String := []

/-- Why arguments cannot be taken apart. -/
inductive OptionFault where
  /-- There is no such letter. -/
  | unknown (c : Char)
  /-- There is no such word. -/
  | unknownWord (w : String)
  /-- A letter lacks its value. -/
  | noValue (c : Char)

/-- What is said of the reason. -/
def OptionFault.message : OptionFault → String
  | unknown c => "invalid option -- '" ++ c.toString ++ "'"
  | unknownWord w => "unrecognized option '" ++ w ++ "'"
  | noValue c => "option requires an argument -- '" ++ c.toString ++ "'"

namespace Options

/-- The letters of one argument.  The text after a letter that takes a value is its value; without
such text the value is the next argument, which is then used up. -/
def letters (flags values : List Char) : List Char → List String →
    Except OptionFault (List (Char × String) × List String)
  | [], rest => .ok ([], rest)
  | c :: cs, rest =>
    if values.contains c then
      match cs, rest with
      | [], [] => .error (.noValue c)
      | [], value :: rest => .ok ([(c, value)], rest)
      | _, _ => .ok ([(c, String.ofList cs)], rest)
    else if flags.contains c then do
      let (given, rest) ← letters flags values cs rest
      return ((c, "") :: given, rest)
    else .error (.unknown c)

/-- Takes arguments apart.  `words` says which letters the long options stand for. -/
def read (flags values : List Char) (words : List (String × Char)) :
    (fuel : Nat) → List String → Except OptionFault Options
  | 0, args => .ok { operands := args }
  | _, [] => .ok {}
  | fuel + 1, arg :: args =>
    match arg.toList with
    | ['-', '-'] => .ok { operands := args }
    | '-' :: '-' :: word =>
      match words.lookup (String.ofList word) with
      | none => .error (.unknownWord arg)
      | some c => do
        let o ← read flags values words fuel args
        return { o with given := (c, "") :: o.given }
    | '-' :: c :: cs => do
      let (given, args) ← letters flags values (c :: cs) args
      let o ← read flags values words fuel args
      return { o with given := given ++ o.given }
    | _ => do
      let o ← read flags values words fuel args
      return { o with operands := arg :: o.operands }

/-- Whether a letter is given. -/
def has (o : Options) (c : Char) : Bool := o.given.any (·.1 == c)

/-- The last value given for a letter. -/
def value? (o : Options) (c : Char) : Option String := o.given.reverse.lookup c

end Options

/-- A tool that gets its arguments taken apart, with the exit code for wrong ones. -/
def Tool.withOptions (name flags values : String) (words : List (String × Char)) (code : Nat)
    (work : Options → Work Nat) : Tool := fun args =>
  match Options.read flags.toList values.toList words (args.length + 1) args with
  | .error e => Work.misused name code e.message
  | .ok o => work o

end Rehearsal

end Provisioning

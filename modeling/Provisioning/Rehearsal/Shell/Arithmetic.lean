import Provisioning.Rehearsal.Shell.Token
import Provisioning.Text.Decimal

/-!
# Arithmetic in shell scripts

Expressions over signed words of 64 bits.  A name stands for the number that its variable spells,
and for 0 if it spells none; a comparison gives 1 or 0.  An expression may also set variables.
-/

namespace Provisioning

namespace Rehearsal

namespace Shell

/-- Why an expression has no value. -/
inductive ArithmeticFault where
  /-- The divisor is 0; the text after the sign is kept. -/
  | zeroDivisor (rest : String)
  /-- It is not an expression. -/
  | malformed
deriving DecidableEq

/-- What is said of a fault of an expression. -/
def ArithmeticFault.message (expr : String) : ArithmeticFault → String
  | zeroDivisor rest => expr ++ ": division by 0 (error token is \"" ++ rest ++ "\")"
  | malformed => expr ++ ": syntax error: operand expected (error token is \"" ++ expr ++ "\")"

/-- The number that is 1 or 0. -/
def ofTruth (b : Bool) : Int64 := if b then 1 else 0

/-- The operators between two numbers, loosest first; on one level those that begin alike stand
longer ones first. -/
def operatorLevels : List (List (String × (Int64 → Int64 → Int64))) :=
  [[("||", fun a b => ofTruth (a != 0 || b != 0))],
    [("&&", fun a b => ofTruth (a != 0 && b != 0))],
    [("|", (· ||| ·))],
    [("^", (· ^^^ ·))],
    [("&", (· &&& ·))],
    [("==", fun a b => ofTruth (a == b)), ("!=", fun a b => ofTruth (a != b))],
    [("<=", fun a b => ofTruth (a ≤ b)), (">=", fun a b => ofTruth (b ≤ a)),
      ("<", fun a b => ofTruth (a < b)), (">", fun a b => ofTruth (b < a))],
    [("<<", (· <<< ·)), (">>", (· >>> ·))],
    [("+", (· + ·)), ("-", (· - ·))],
    [("*", (· * ·)), ("/", (· / ·)), ("%", (· % ·))]]

/-- The operator of a level that a text begins with.  A sign that is only the beginning of another
operator does not count. -/
def operatorOf (level : List (String × (Int64 → Int64 → Int64))) (cs : List Char) :
    Option (String × (Int64 → Int64 → Int64) × List Char) :=
  level.findSome? fun (sign, f) =>
    match Text.dropLead? sign.toList cs with
    | some (c :: rest) =>
      if sign.length == 1 && (sign == c.toString && c != '-' && c != '+') then none
      else if (sign == "<" || sign == ">") && c == '=' then none
      else some (sign, f, c :: rest)
    | some [] => some (sign, f, [])
    | none => none

/-- A text without the blanks in front. -/
def skipBlanks (cs : List Char) : List Char :=
  cs.dropWhile fun c => c == ' ' || c == '\t' || c == '\n'

/-- The value of a numeral: octal after a 0, hexadecimal after `0x`. -/
def numeral (cs : List Char) : Int64 :=
  let hexDigit (c : Char) : Nat :=
    if c.isDigit then c.toNat - 48 else if c.toLower ≤ 'f' then c.toLower.toNat - 87 else 0
  let inBase (base : Nat) (cs : List Char) : Nat := cs.foldl (fun n c => n * base + hexDigit c) 0
  let n := match cs with
    | '0' :: 'x' :: cs | '0' :: 'X' :: cs => inBase 16 cs
    | '0' :: cs => inBase 8 cs
    | cs => inBase 10 cs
  Int64.ofInt n

/-- A calculation: it sets variables, latest first, or fails. -/
abbrev Calc := StateT (List (String × Int64)) (Except ArithmeticFault)

/-- The number that a variable spells. -/
def spelled (value : String) : Int64 :=
  match skipBlanks value.toList with
  | '-' :: digits => -numeral (digits.takeWhile Char.isDigit)
  | digits => numeral (digits.takeWhile Char.isDigit)

/-- The number that a name stands for. -/
def numberOf (get : String → String) (name : String) : Calc Int64 := do
  return ((← StateT.get).lookup name).getD (spelled (get name))

/-- Sets a variable, and gives the number that it now spells. -/
def store (name : String) (n : Int64) : Calc Int64 := do
  modify ((name, n) :: ·)
  return n

/-- The signs that set a variable, and how its old value has a part in that. -/
def settingSigns : List (String × (Int64 → Int64 → Int64)) :=
  [("+=", (· + ·)), ("-=", (· - ·)), ("*=", (· * ·))]

/-- A power. -/
def power (a b : Int64) : Int64 := (List.replicate b.toInt.toNat a).foldl (· * ·) 1

mutual

/-- A sequence of operands and operators of some levels, from the first level down. -/
def leveled (get : String → String) : (fuel : Nat) →
    List (List (String × (Int64 → Int64 → Int64))) → List Char → Calc (Int64 × List Char)
  | 0, _, _ => throw .malformed
  | fuel + 1, [], cs => do
    let (a, cs) ← operand get fuel cs
    match Text.dropLead? ['*', '*'] (skipBlanks cs) with
    | some rest =>
      let (b, cs) ← leveled get fuel [] rest
      return (power a b, cs)
    | none => return (a, cs)
  | fuel + 1, level :: levels, cs => do
    let (a, cs) ← leveled get fuel levels cs
    continued get fuel level levels a cs

/-- The operators of a level that follow a value. -/
def continued (get : String → String) : (fuel : Nat) →
    List (String × (Int64 → Int64 → Int64)) → List (List (String × (Int64 → Int64 → Int64))) →
    Int64 → List Char → Calc (Int64 × List Char)
  | 0, _, _, _, _ => throw .malformed
  | fuel + 1, level, levels, a, cs => do
    let cs := skipBlanks cs
    match operatorOf level cs with
    | none => return (a, cs)
    | some (sign, f, rest) =>
      let (b, rest') ← leveled get fuel levels rest
      if (sign == "/" || sign == "%") && b == 0 then
        throw (.zeroDivisor (String.ofList (skipBlanks rest)))
      continued get fuel level levels (f a b) rest'

/-- A number, a name, a parenthesis or a signed operand. -/
def operand (get : String → String) : (fuel : Nat) → List Char → Calc (Int64 × List Char)
  | 0, _ => throw .malformed
  | fuel + 1, cs => do
    match skipBlanks cs with
    | '(' :: cs =>
      let (a, cs) ← leveled get fuel operatorLevels cs
      match skipBlanks cs with
      | ')' :: cs => return (a, cs)
      | _ => throw .malformed
    | '+' :: '+' :: cs =>
      let name := String.ofList (cs.takeWhile inName)
      return (← store name ((← numberOf get name) + 1), cs.dropWhile inName)
    | '-' :: '-' :: cs =>
      let name := String.ofList (cs.takeWhile inName)
      return (← store name ((← numberOf get name) - 1), cs.dropWhile inName)
    | '-' :: cs =>
      let (a, cs) ← operand get fuel cs
      return (-a, cs)
    | '+' :: cs => operand get fuel cs
    | '!' :: cs =>
      let (a, cs) ← operand get fuel cs
      return (ofTruth (a == 0), cs)
    | '~' :: cs =>
      let (a, cs) ← operand get fuel cs
      return (~~~a, cs)
    | c :: cs =>
      if c.isDigit then
        return (numeral ((c :: cs).takeWhile Char.isAlphanum), (c :: cs).dropWhile Char.isAlphanum)
      else if beginsName c then
        aboutName get fuel (String.ofList ((c :: cs).takeWhile inName))
          (skipBlanks ((c :: cs).dropWhile inName))
      else throw .malformed
    | [] => throw .malformed

/-- A name, and what is done with its variable. -/
def aboutName (get : String → String) : (fuel : Nat) → String → List Char → Calc (Int64 × List Char)
  | 0, _, _ => throw .malformed
  | fuel + 1, name, cs => do
    let old ← numberOf get name
    match cs with
    | '+' :: '+' :: rest =>
      let _ ← store name (old + 1)
      return (old, rest)
    | '-' :: '-' :: rest =>
      let _ ← store name (old - 1)
      return (old, rest)
    | '=' :: '=' :: _ => return (old, cs)
    | '=' :: rest =>
      let (a, rest) ← leveled get fuel operatorLevels rest
      return (← store name a, rest)
    | _ =>
      match settingSigns.find? fun (sign, _) => sign.toList.isPrefixOf cs with
      | none => return (old, cs)
      | some (sign, f) =>
        let (a, rest) ← leveled get fuel operatorLevels (cs.drop sign.length)
        return (← store name (f old a), rest)

end

/-- The value of an expression, and the variables that it sets, first ones first; blank ones have
the value 0. -/
def arithmetic (get : String → String) (expr : String) :
    Except ArithmeticFault (Int64 × List (String × Int64)) :=
  let cs := expr.toList
  if (skipBlanks cs).isEmpty then .ok (0, [])
  else do
    let ((a, rest), stored) ← (leveled get (16 * cs.length + 16) operatorLevels cs).run []
    if (skipBlanks rest).isEmpty then return (a, stored.reverse) else throw .malformed

end Shell

end Rehearsal

end Provisioning

import Provisioning.Json.Value
import Provisioning.Text.Decimal
import Provisioning.Text.Double

/-!
# Reading JSON

`Json.Value.ofText?` reads a whole text as one value with blanks around it.  Arrays and objects
may stand in one another 127 deep.  A number beyond the range of doubles is refused, and so is a
surrogate that has no partner.
-/

namespace Provisioning

namespace Json

/-- The blanks between tokens. -/
def isSpace (c : Char) : Bool :=
  c == ' ' || c == '\n' || c == '\r' || c == '\t'

/-- The characters from the first one on that is not blank. -/
def skipSpace (cs : List Char) : List Char := cs.dropWhile isSpace

/-! ### Strings -/

/-- The value of a digit to the base 16. -/
def hexDigit? (c : Char) : Option Nat :=
  if '0' ≤ c && c ≤ '9' then some (c.toNat - '0'.toNat)
  else if 'a' ≤ c && c ≤ 'f' then some (c.toNat - 'a'.toNat + 10)
  else if 'A' ≤ c && c ≤ 'F' then some (c.toNat - 'A'.toNat + 10)
  else none

/-- The number that four digits to the base 16 spell. -/
def unit? (a b c d : Char) : Option Nat := do
  return (((← hexDigit? a) * 16 + (← hexDigit? b)) * 16 + (← hexDigit? c)) * 16 + (← hexDigit? d)

/-- What a backslash and a letter stand for. -/
def escape? (c : Char) : Option Char :=
  match c with
  | '"' | '\\' | '/' => some c
  | 'b' => some '\x08'
  | 'f' => some '\x0c'
  | 'n' => some '\n'
  | 'r' => some '\r'
  | 't' => some '\t'
  | _ => none

/-- One more character in front of what is read. -/
def push (c : Char) : Option (List Char × List Char) → Option (List Char × List Char) :=
  Option.map fun (cs, rest) => (c :: cs, rest)

/-- The characters of a string after its first quote. -/
def stringBody : List Char → Option (List Char × List Char)
  | [] => none
  | '"' :: rest => some ([], rest)
  | '\\' :: 'u' :: a :: b :: c :: d :: rest =>
    match unit? a b c d with
    | none => none
    | some n =>
      if n < 0xD800 || 0xDFFF < n then push (Char.ofNat n) (stringBody rest)
      else if 0xDBFF < n then none
      else
        match rest with
        | '\\' :: 'u' :: a' :: b' :: c' :: d' :: rest' =>
          match unit? a' b' c' d' with
          | none => none
          | some m =>
            if 0xDC00 ≤ m && m ≤ 0xDFFF then
              push (Char.ofNat (0x10000 + (n - 0xD800) * 0x400 + (m - 0xDC00))) (stringBody rest')
            else none
        | _ => none
  | '\\' :: c :: rest =>
    match escape? c with
    | none => none
    | some e => push e (stringBody rest)
  | c :: rest => if c.toNat < 0x20 then none else push c (stringBody rest)

/-- A string after its first quote. -/
def stringAfterQuote (cs : List Char) : Option (String × List Char) :=
  (stringBody cs).map fun (s, rest) => (String.ofList s, rest)

/-! ### Numbers -/

/-- A run of at least one digit. -/
def digits (cs : List Char) : Option (List Char × List Char) :=
  match cs.takeWhile Char.isDigit with
  | [] => none
  | ds => some (ds, cs.dropWhile Char.isDigit)

/-- The digits after a point; none if there is no point. -/
def fraction (cs : List Char) : Option (List Char × List Char) :=
  match cs with
  | '.' :: rest => digits rest
  | _ => some ([], cs)

/-- The exponent, with its letter and sign; nothing if there is none. -/
def exponent (cs : List Char) : Option (Option Int × List Char) :=
  let signed (negative : Bool) (rest : List Char) : Option (Option Int × List Char) :=
    (digits rest).bind fun (ds, rest) =>
      (Decimal.readNat ds).map fun n => (some (if negative then -(n : Int) else n), rest)
  let afterLetter (rest : List Char) : Option (Option Int × List Char) :=
    match rest with
    | '-' :: rest => signed true rest
    | '+' :: rest => signed false rest
    | _ => signed false rest
  match cs with
  | 'e' :: rest | 'E' :: rest => afterLetter rest
  | _ => some (none, cs)

/-- The digits of a number that fit into 64 bits, from the first one on, as a whole number, and how
many come after them. -/
def leading (digits : Nat × Nat) (c : Char) : Nat × Nat :=
  let n := digits.1 * 10 + (c.toNat - 48)
  if digits.2 = 0 && n < Nat.pow 2 64 then (n, 0) else (digits.1, digits.2 + 1)

/-- The nearest number that has no more than 53 binary digits before its zeros. -/
def rounded (n : Nat) : Nat :=
  let unit := Nat.pow 2 (n.log2 - 52)
  Double.roundDiv n unit * unit

/-- Whether a number is beyond all doubles.  Its leading digits and the power of ten by which they
are multiplied are rounded each on its own. -/
def overflows (digits : List Char) (e : Int) : Bool :=
  let (m, more) := digits.foldl leading (0, 0)
  let e := e + more
  m != 0 && 0 ≤ e
    && (308 < e || Nat.pow 2 1024 - Nat.pow 2 970 ≤ rounded m * rounded (Nat.pow 10 e.toNat))

/-- The number with the given parts. -/
def numberOf (negative : Bool) (whole frac : List Char) (exp : Option Int) : Option Value := do
  let m ← Decimal.readNat (whole ++ frac)
  let e := exp.getD 0 - frac.length
  let n : Int := if negative then -(m : Int) else m
  if frac.isEmpty && exp.isNone &&
      (if negative then m != 0 && m ≤ Nat.pow 2 63 else m < Nat.pow 2 64) then
    return .int n
  if overflows (whole ++ frac) e then none
  else
    return .real (String.ofList ((if negative then ['-'] else []) ++ Nat.toDigits 10 m ++ 'e' ::
      (toString e).toList))

/-- A number without its sign. -/
def magnitude (negative : Bool) (cs : List Char) : Option (Value × List Char) := do
  let (whole, rest) ← digits cs
  if whole.head? == some '0' && whole != ['0'] then none
  else
    let (frac, rest) ← fraction rest
    let (exp, rest) ← exponent rest
    return (← numberOf negative whole frac exp, rest)

/-- A number. -/
def number (cs : List Char) : Option (Value × List Char) :=
  match cs with
  | '-' :: rest => magnitude true rest
  | _ => magnitude false cs

/-! ### Values -/

/-- The items of an array, the first of which comes now, and the closing bracket; `fuel` bounds
their number. -/
def items (item : List Char → Option (Value × List Char)) :
    (fuel : Nat) → List Char → Option (List Value × List Char)
  | 0, _ => none
  | fuel + 1, cs => do
    let (v, rest) ← item (skipSpace cs)
    match skipSpace rest with
    | ',' :: rest =>
      let (vs, rest) ← items item fuel rest
      return (v :: vs, rest)
    | ']' :: rest => return ([v], rest)
    | _ => none

/-- The entries of an object, the first of which comes now, and the closing brace; `fuel` bounds
their number. -/
def entries (item : List Char → Option (Value × List Char)) :
    (fuel : Nat) → List Char → Option (List (String × Value) × List Char)
  | 0, _ => none
  | fuel + 1, cs =>
    match skipSpace cs with
    | '"' :: rest => do
      let (k, rest) ← stringAfterQuote rest
      match skipSpace rest with
      | ':' :: rest =>
        let (v, rest) ← item (skipSpace rest)
        match skipSpace rest with
        | ',' :: rest =>
          let (es, rest) ← entries item fuel rest
          return ((k, v) :: es, rest)
        | '\x7d' :: rest => return ([(k, v)], rest)
        | _ => none
      | _ => none
    | _ => none

/-- The text after a word that the characters begin with. -/
def word (w : String) (v : Value) (cs : List Char) : Option (Value × List Char) :=
  if w.toList.isPrefixOf cs then some (v, cs.drop w.toList.length) else none

/-- A value that begins with the first character and holds no array and no object. -/
def scalar (cs : List Char) : Option (Value × List Char) :=
  match cs with
  | '"' :: rest => (stringAfterQuote rest).map fun (s, rest) => (.str s, rest)
  | 'n' :: _ => word "null" .null cs
  | 't' :: _ => word "true" (.bool true) cs
  | 'f' :: _ => word "false" (.bool false) cs
  | _ => number cs

/-- A value that begins with the first character, with arrays and objects at most `depth` deep. -/
def value : (depth : Nat) → List Char → Option (Value × List Char)
  | 0, cs =>
    match cs with
    | '[' :: _ | '\x7b' :: _ => none
    | _ => scalar cs
  | depth + 1, cs =>
    match cs with
    | '[' :: rest =>
      match skipSpace rest with
      | ']' :: rest => some (.arr [], rest)
      | rest => (items (value depth) (rest.length + 1) rest).map fun (vs, rest) => (.arr vs, rest)
    | '\x7b' :: rest =>
      match skipSpace rest with
      | '\x7d' :: rest => some (.obj [], rest)
      | rest =>
        (entries (value depth) (rest.length + 1) rest).map fun (es, rest) => (.obj es, rest)
    | _ => scalar cs

/-- How deep arrays and objects may stand in one another. -/
def depthLimit : Nat := 127

/-- The value that a whole text says. -/
def Value.ofText? (s : String) : Option Value :=
  match value depthLimit (skipSpace s.toList) with
  | some (v, rest) => if (skipSpace rest).isEmpty then some v else none
  | none => none

end Json

end Provisioning

import Provisioning.Text.Double
import Provisioning.Text.Decimal
import Provisioning.Yaml.Scalar

/-!
# Plain scalars that are no texts

What a plain scalar stands for where no type is asked for: null, a truth value, a whole number, a
fraction, or else its text.
-/

namespace Provisioning

namespace Yaml

/-- A number: whole from −2⁶³ to 2⁶⁴ − 1, or a binary fraction. -/
inductive Number where
  | int (n : Int)
  | float (x : Double)
deriving DecidableEq, Repr

/-- What a plain scalar stands for. -/
inductive Plain where
  | null
  | bool (b : Bool)
  | number (n : Number)
  /-- A whole number that is too large. -/
  | huge
  | text
deriving DecidableEq

/-! ### Single types -/

/-- Whether a text stands for null. -/
def isNull (s : String) : Bool := s == "null" || s == "Null" || s == "NULL" || s == "~"

/-- The truth value that a text stands for. -/
def bool? (s : String) : Option Bool :=
  if s == "true" || s == "True" || s == "TRUE" then some true
  else if s == "false" || s == "False" || s == "FALSE" then some false
  else none

/-- Whether a text begins with a sign. -/
def hasSign (cs : List Char) : Bool := cs.head?.any fun c => c == '+' || c == '-'

/-- The value of a digit below sixteen. -/
def digitBelow? (base : Nat) (c : Char) : Option Nat := (hexDigit? c).filter (· < base)

/-- The value of a run of digits in a base. -/
def natIn? (base : Nat) (cs : List Char) : Option Nat :=
  if cs.isEmpty then none
  else cs.foldl (fun acc c => do return (← acc) * base + (← digitBelow? base c)) (some 0)

/-- Whether a text has more than one digit, the first a zero: it is no number. -/
def isPaddedDigits (cs : List Char) : Bool :=
  let cs := if hasSign cs then cs.drop 1 else cs
  cs.head? == some '0' && 2 ≤ cs.length && cs.all Char.isDigit

/-- The base and the digits of a text that begins with the mark of a base. -/
def based? : List Char → Option (Nat × List Char)
  | '0' :: 'x' :: cs => some (16, cs)
  | '0' :: 'o' :: cs => some (8, cs)
  | '0' :: 'b' :: cs => some (2, cs)
  | _ => none

/-- The whole number without a sign that a text stands for, in any of the four bases. -/
def magnitude? (cs : List Char) : Option Nat :=
  match based? cs with
  | some (base, digits) => natIn? base digits
  | none => natIn? 10 cs

/-- The whole number that a text stands for. -/
def int? (s : String) : Option Int :=
  let cs := s.toList
  if isPaddedDigits cs then none
  else
    match cs with
    | '-' :: cs => (magnitude? cs).map fun n => -(n : Int)
    | '+' :: cs => (magnitude? cs).map Int.ofNat
    | _ => (magnitude? cs).map Int.ofNat

/-- The digits before and after a point and an exponent. -/
def fraction? (cs : List Char) : Option (List Char × List Char × Int) :=
  let whole := cs.takeWhile Char.isDigit
  let rest := cs.dropWhile Char.isDigit
  let (part, rest) :=
    match rest with
    | '.' :: r => (r.takeWhile Char.isDigit, r.dropWhile Char.isDigit)
    | r => ([], r)
  if whole.isEmpty && part.isEmpty then none
  else
    match rest with
    | [] => some (whole, part, 0)
    | e :: r =>
      if e == 'e' || e == 'E' then (Decimal.readInt r).map fun n => (whole, part, n) else none

/-- The finite fraction that a text without a sign stands for. -/
def finite? (negative : Bool) (cs : List Char) : Option Double := do
  let (whole, part, e) ← fraction? cs
  let digits ← Decimal.readNat (whole ++ part)
  Double.ofDecimal? negative digits (e - part.length)

/-- The fraction that a text stands for. -/
def float? (s : String) : Option Double :=
  match s with
  | ".inf" | ".Inf" | ".INF" | "+.inf" | "+.Inf" | "+.INF" => some (.infinity false)
  | "-.inf" | "-.Inf" | "-.INF" => some (.infinity true)
  | ".nan" | ".NaN" | ".NAN" => some .nan
  | _ =>
    match s.toList with
    | '-' :: cs => finite? true cs
    | '+' :: cs => finite? false cs
    | cs => finite? false cs

/-! ### Any type -/

/-- The number that a whole number is, if it is not too large: beyond 64 bits there is none, and
beyond 128 bits it is read as a fraction. -/
def ofInt (n : Int) : Option Plain :=
  if -Int.pow 2 63 ≤ n && n < Int.pow 2 64 then some (.number (.int n))
  else if -Int.pow 2 127 ≤ n && n < Int.pow 2 128 then some .huge
  else none

/-- What a plain scalar stands for. -/
def Plain.ofText (s : String) : Plain :=
  if s.isEmpty || isNull s then .null
  else
    match bool? s with
    | some b => .bool b
    | none =>
      match (int? s).bind ofInt with
      | some p => p
      | none =>
        match (if isPaddedDigits s.toList then none else float? s) with
        | some x => .number (.float x)
        | none => .text

/-! ### Numbers as text -/

/-- A decimal with the fewest digits: positional if the leading digit stands between the places
10⁻⁵ and 10¹⁵, with a digit after the point; otherwise with an exponent. -/
def decimalText (digits : Nat) (exponent : Int) : String :=
  let ds := Nat.toDigits 10 digits
  let point := (ds.length : Int) + exponent
  if 0 ≤ exponent && point ≤ 16 then
    String.ofList (ds ++ List.replicate exponent.toNat '0' ++ ['.', '0'])
  else if 0 < point && point ≤ 16 then
    String.ofList (ds.take point.toNat ++ '.' :: ds.drop point.toNat)
  else if -5 < point && point ≤ 0 then
    String.ofList (['0', '.'] ++ List.replicate (-point).toNat '0' ++ ds)
  else
    let tail := 'e' :: (toString (point - 1)).toList
    match ds with
    | [d] => String.ofList (d :: tail)
    | d :: more => String.ofList (d :: '.' :: more ++ tail)
    | [] => ""

/-- A fraction as text. -/
def floatText : Double → String
  | .nan => ".nan"
  | .infinity false => ".inf"
  | .infinity true => "-.inf"
  | .finite negative m q =>
    let sign := if negative then "-" else ""
    if m = 0 then sign ++ "0.0"
    else
      let (digits, exponent) := Double.shortest m q
      sign ++ decimalText digits exponent

/-- A number as text. -/
def Number.text : Number → String
  | int n => toString n
  | float x => floatText x

/-- Whether two numbers count as the same.  A whole number and a fraction never do. -/
def Number.same : Number → Number → Bool
  | int m, int n => m = n
  | float x, float y => x.same y
  | _, _ => false

/-- The number as a signed word of 64 bits, if it is one. -/
def Number.int64? : Number → Option Int64
  | int n => Decimal.toInt64? n
  | float _ => none

end Yaml

end Provisioning

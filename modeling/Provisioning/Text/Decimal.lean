/-!
# Whole numbers as text

`Decimal.readInt` reads a run of decimal digits with an optional sign, `Decimal.int64?` the same
within 64 bits.  No blanks, no separators and no empty run are accepted.
-/

namespace Provisioning

namespace Decimal

/-- The value of a run of decimal digits, most significant first. -/
def readNat : List Char → Option Nat
  | [] => none
  | cs =>
    if cs.all Char.isDigit then some (cs.foldl (fun n c => n * 10 + (c.toNat - 48)) 0) else none

/-- The value of a run of decimal digits after an optional sign. -/
def readInt : List Char → Option Int
  | '-' :: cs => (readNat cs).map fun n => -(n : Int)
  | '+' :: cs => (readNat cs).map fun n => (n : Int)
  | cs => (readNat cs).map fun n => (n : Int)

/-- The number as a signed word of 64 bits, if it is one. -/
def toInt64? (n : Int) : Option Int64 :=
  if -Int.pow 2 63 ≤ n && n < Int.pow 2 63 then some (Int64.ofInt n) else none

/-- The signed word of 64 bits that a text spells. -/
def int64? (s : String) : Option Int64 :=
  (readInt s.toList).bind toInt64?

/-- A signed word of 64 bits in decimal. -/
def ofInt64 (n : Int64) : String :=
  toString n.toInt

/-- A number padded with blanks on the left to a width. -/
def padded (width n : Nat) : String :=
  let digits := toString n
  String.ofList (List.replicate (width - digits.length) ' ') ++ digits

end Decimal

end Provisioning

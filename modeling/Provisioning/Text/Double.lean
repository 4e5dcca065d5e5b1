/-!
# Binary fractions of 64 bits

A finite value is `m * 2 ^ q` with a sign, `m` below `2 ^ 53` and `q` between −1074 and 971.
`Double.ofDecimal` gives the value nearest to a decimal, `Double.shortest` the decimal of fewest
digits that reads back to a value, and of those the nearest.  All arithmetic is exact.
-/

namespace Provisioning

/-- A binary fraction of 64 bits, an infinity, or no number. -/
inductive Double where
  /-- The value `m * 2 ^ q`, negated if `negative`. -/
  | finite (negative : Bool) (m : Nat) (q : Int)
  | infinity (negative : Bool)
  | nan
deriving DecidableEq, Repr

namespace Double

/-- The quotient rounded to the nearest whole number, a half to the even one. -/
def roundDiv (num den : Nat) : Nat :=
  let q := num / den
  let r := num % den
  if 2 * r < den then q else if den < 2 * r then q + 1 else q + q % 2

/-- The numerator and the denominator of `n * b ^ e`. -/
def scaled (n b : Nat) (e : Int) : Nat × Nat :=
  if 0 ≤ e then (n * Nat.pow b e.toNat, 1) else (n, Nat.pow b (-e).toNat)

/-- The greatest `e` with `2 ^ e ≤ num / den`. -/
def binaryExponent (num den : Nat) : Int :=
  let e := (num.log2 : Int) - den.log2
  let (a, b) := scaled den 2 e
  if num * b < a then e - 1 else e

/-- The value nearest to `digits * 10 ^ exponent`; none if it is beyond all values. -/
def ofDecimal? (negative : Bool) (digits : Nat) (exponent : Int) : Option Double :=
  let size := (Nat.toDigits 10 digits).length
  if digits = 0 || (size : Int) + exponent < -330 then some (.finite negative 0 0)
  else if 310 < (size : Int) + exponent then none
  else
    let (num, den) := scaled digits 10 exponent
    let q := max (binaryExponent num den - 52) (-1074)
    let (a, b) := scaled num 2 (-q)
    let m := roundDiv a (den * b)
    let (m, q) := if m = Nat.pow 2 53 then (Nat.pow 2 52, q + 1) else (m, q)
    if 971 < q then none else some (.finite negative m q)

/-- Whether a value is zero, of either sign. -/
def isZero : Double → Bool
  | finite _ m _ => m = 0
  | _ => false

/-- Whether two values count as the same: the zeros of both signs do. -/
def same (x y : Double) : Bool := x = y || (x.isZero && y.isZero)

/-! ### The shortest decimal -/

/-- The greatest `e` with `10 ^ e ≤ num / den`, sought downwards from a bound. -/
def decimalExponent (num den : Nat) : Nat → Int → Int
  | 0, e => e
  | n + 1, e =>
    let (a, b) := scaled den 10 e
    if a ≤ num * b then e else decimalExponent num den n (e - 1)

/-- Whether `d * 10 ^ k` reads back to `m * 2 ^ q`: it lies no further from it than half way to its
neighbours, and the ends count if `m` is even. -/
def readsBack (m : Nat) (q : Int) (d : Nat) (k : Int) : Bool :=
  let below := if m = Nat.pow 2 52 && -1074 < q then 4 * m - 1 else 4 * m - 2
  let (lo, hi) := (below, 4 * m + 2)
  let (dNum, dDen) := scaled d 10 k
  let (b, c) := scaled 1 2 (q - 2)
  let x := dNum * c
  let scale := dDen * b
  if m % 2 = 0 then lo * scale ≤ x && x ≤ hi * scale
  else lo * scale < x && x < hi * scale

/-- The nearer of the two decimals with step `10 ^ k` beside the value, if one reads back. -/
def onGrid? (m : Nat) (q k : Int) : Option Nat :=
  let (a, b) := scaled m 2 q
  let (c, d) := scaled 1 10 k
  let num := a * d
  let den := b * c
  let down := num / den
  let near := roundDiv num den
  let far := if near = down then down + 1 else down
  if readsBack m q near k then some near
  else if readsBack m q far k then some far
  else none

/-- The first decimal that reads back, with the leading digit at `10 ^ lead`, tried with `tried`
digits and then with more. -/
def search (m : Nat) (q lead : Int) : Nat → Int → Nat × Int
  | 0, k => ((onGrid? m q k).getD 0, k)
  | n + 1, k =>
    match onGrid? m q k with
    | some d => (d, k)
    | none => search m q lead n (k - 1)

/-- Drops zeros at the end of digits. -/
def dropZeros : Nat → Nat → Int → Nat × Int
  | 0, d, k => (d, k)
  | n + 1, d, k => if d % 10 = 0 && d ≠ 0 then dropZeros n (d / 10) (k + 1) else (d, k)

/-- The shortest decimal `digits * 10 ^ exponent` that reads back to `m * 2 ^ q`. -/
def shortest (m : Nat) (q : Int) : Nat × Int :=
  let (num, den) := scaled m 2 q
  let lead := decimalExponent num den 700 310
  let (d, k) := search m q lead 17 lead
  dropZeros 20 d k

end Double

end Provisioning

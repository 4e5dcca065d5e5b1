import Provisioning.Text.Utf8
import Provisioning.Text.Decimal

/-!
# Values of fields

A field holds a text, a whole number of 64 bits, a truth value or bytes.  Each kind has a zero
value, which counts as unset.
-/

namespace Provisioning

namespace Field

/-- What a field may hold. -/
inductive Kind where
  | string
  | int
  | bool
  | bytes
deriving DecidableEq, Repr, Inhabited

/-- The word for a kind in messages. -/
def Kind.word : Kind → String
  | .string => "string"
  | .int => "int"
  | .bool => "bool"
  | .bytes => "bytes"

/-- What a field holds. -/
inductive Value where
  | string (text : String)
  | int (n : Int64)
  | bool (b : Bool)
  | bytes (bs : List UInt8)
deriving DecidableEq, Inhabited

namespace Value

/-- The kind of a value. -/
def kind : Value → Kind
  | string _ => .string
  | int _ => .int
  | bool _ => .bool
  | bytes _ => .bytes

/-- The zero value of a kind. -/
def zero : Kind → Value
  | .string => string ""
  | .int => int 0
  | .bool => bool false
  | .bytes => bytes []

/-- Whether a value is the zero value of its kind. -/
def isZero : Value → Bool
  | string s => s.toList.isEmpty
  | int n => n == 0
  | bool b => !b
  | bytes bs => bs.isEmpty

/-- The text that stands for a value in a template. -/
def render : Value → String
  | string s => s
  | int n => Decimal.ofInt64 n
  | bool b => if b then "true" else "false"
  | bytes bs => Utf8.decode bs

@[simp] theorem kind_zero (k : Kind) : (zero k).kind = k := by
  cases k <;> rfl

theorem isZero_iff (v : Value) : v.isZero = true ↔ v = zero v.kind := by
  cases v <;> simp [isZero, zero, kind, List.isEmpty_iff]

end Value

end Field

end Provisioning

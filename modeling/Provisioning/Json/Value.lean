import Provisioning.Text.Quoted

/-!
# JSON values and their text

A `Json.Value` is what a JSON text says; the entries of an object stand in the order of the text
and may repeat a name.  `Json.Value.render` is the compact text, in which no character below
U+0020 stands as itself.
-/

namespace Provisioning

namespace Json

/-- What a JSON text says. -/
inductive Value where
  | null
  | bool (b : Bool)
  /-- A number written without point and exponent that fits into 64 bits, signed or unsigned. -/
  | int (n : Int)
  /-- Any other number, as it is written. -/
  | real (literal : String)
  | str (s : String)
  | arr (items : List Value)
  | obj (entries : List (String × Value))
deriving Inhabited

/-! ### Writing -/

/-- Two lower-case hexadecimal digits. -/
def hexPair (n : Nat) : List Char :=
  [Nat.digitChar (n / 16), Nat.digitChar (n % 16)]

/-- A character inside a string. -/
def escaped (c : Char) : List Char :=
  if c == '"' || c == '\\' then ['\\', c]
  else if c == '\n' then ['\\', 'n']
  else if c == '\r' then ['\\', 'r']
  else if c == '\t' then ['\\', 't']
  else if c == '\x08' then ['\\', 'b']
  else if c == '\x0c' then ['\\', 'f']
  else if c.toNat < 0x20 then ['\\', 'u', '0', '0'] ++ hexPair c.toNat
  else [c]

/-- A string with the quotes around it. -/
def stringChars (s : String) : List Char :=
  '"' :: (s.toList.flatMap escaped ++ ['"'])

mutual

/-- The compact text of a value. -/
def Value.chars : Value → List Char
  | .null => "null".toList
  | .bool b => (if b then "true" else "false").toList
  | .int n => (toString n).toList
  | .real literal => literal.toList
  | .str s => stringChars s
  | .arr items => '[' :: (itemsChars items ++ [']'])
  | .obj entries => '\x7b' :: (entriesChars entries ++ ['\x7d'])

/-- The items of an array, with commas between them. -/
def itemsChars : List Value → List Char
  | [] => []
  | [v] => v.chars
  | v :: w :: vs => v.chars ++ ',' :: itemsChars (w :: vs)

/-- The entries of an object, with commas between them. -/
def entriesChars : List (String × Value) → List Char
  | [] => []
  | [(k, v)] => stringChars k ++ ':' :: v.chars
  | (k, v) :: e :: es => stringChars k ++ ':' :: (v.chars ++ ',' :: entriesChars (e :: es))

end

/-- The compact text of a value. -/
def Value.render (v : Value) : String := String.ofList v.chars

end Json

end Provisioning

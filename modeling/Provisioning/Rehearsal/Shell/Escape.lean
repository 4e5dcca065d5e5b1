import Provisioning.Text.Utf8

/-!
# Escapes

What a backslash and the characters after it stand for, in texts to be printed and in words.
-/

namespace Provisioning

namespace Rehearsal

namespace Shell

/-- The value of digits in a base. -/
def digitsValue (base : Nat) (cs : List Char) : Nat :=
  cs.foldl (fun n c =>
    n * base + if c.isDigit then c.toNat - 48 else c.toLower.toNat - 87) 0

/-- Whether a character is a hexadecimal digit. -/
def isHex (c : Char) : Bool := c.isDigit || ('a' ≤ c.toLower && c.toLower ≤ 'f')

/-- Whether a character is an octal digit. -/
def isOctal (c : Char) : Bool := '0' ≤ c && c ≤ '7'

/-- The characters that a letter after a backslash stands for. -/
def escapes : List (Char × Char) :=
  [('a', '\x07'), ('b', '\x08'), ('e', '\x1b'), ('f', '\x0c'), ('n', '\n'), ('r', '\r'),
    ('t', '\t'), ('v', '\x0b'), ('\\', '\\')]

/-- What stands after a backslash: its bytes and what comes after it, or nothing if all printing
ends there.  With `zero` octal digits need a 0 in front. -/
def escape? (zero : Bool) : List Char → Option (List UInt8 × List Char)
  | 'c' :: _ => none
  | 'x' :: cs =>
    let digits := (cs.take 2).takeWhile isHex
    if digits.isEmpty then some (textBytes "\\x", cs)
    else some ([UInt8.ofNat (digitsValue 16 digits)], cs.drop digits.length)
  | c :: cs =>
    let octal := if zero then (if c == '0' then cs.take 3 else []) else (c :: cs).take 3
    let digits := octal.takeWhile isOctal
    if isOctal c && (!zero || c == '0') then
      some ([UInt8.ofNat (digitsValue 8 digits)], (if zero then cs else c :: cs).drop digits.length)
    else
      match escapes.lookup c with
      | some d => some (Utf8.encode [d], cs)
      | none => some (Utf8.encode ['\\', c], cs)
  | [] => some (textBytes "\\", [])

/-- The bytes of a text with its escapes replaced, and whether all printing ends there. -/
def unescaped (zero : Bool) : (fuel : Nat) → List Char → List UInt8 × Bool
  | 0, _ | _, [] => ([], false)
  | fuel + 1, '\\' :: cs =>
    match escape? zero cs with
    | none => ([], true)
    | some (bytes, rest) =>
      let (more, ended) := unescaped zero fuel rest
      (bytes ++ more, ended)
  | fuel + 1, c :: cs =>
    let (more, ended) := unescaped zero fuel cs
    (Utf8.encode [c] ++ more, ended)

/-- The text up to a closing single quote, with its escapes in place, and the text after it.
Quotes that are escaped are written out. -/
def upToBareQuote : List Char → Option (List Char × List Char)
  | [] => none
  | '\'' :: cs => some ([], cs)
  | '\\' :: c :: cs =>
    let d := if c == '\'' || c == '"' || c == '?' then [c] else ['\\', c]
    (upToBareQuote cs).map fun (a, b) => (d ++ a, b)
  | c :: cs => (upToBareQuote cs).map fun (a, b) => (c :: a, b)

/-- The text that a dollar sign and single quotes enclose, its escapes replaced, and what comes
after it. -/
def dollarQuoted? (cs : List Char) : Option (List Char × List Char) :=
  (upToBareQuote cs).map fun (inner, rest) =>
    (Utf8.decodeChars (unescaped false (inner.length + 1) inner).1, rest)

/-- Characters that mean something to a shell. -/
def isShellSign (c : Char) : Bool :=
  " '\"\\|&;()<>!\x7b\x7d*[]?^$,".toList.contains c || c == '\x60'

/-- A byte in a quoted word, as itself or as an octal escape. -/
def octalChars (b : UInt8) : List Char :=
  let digit (n : Nat) : Char := Char.ofNat (48 + n % 8)
  if 32 ≤ b && b < 127 then [Char.ofNat b.toNat]
  else ['\\', digit (b.toNat / 64), digit (b.toNat / 8), digit b.toNat]

/-- A text as one word with backslashes; one with characters that cannot be seen is put between a
dollar sign with a quote and a quote. -/
def escapedWord (s : String) : String :=
  let cs := s.toList
  if cs.isEmpty then "''"
  else if cs.any fun c => c < ' ' || '~' < c then
    "$'" ++ String.ofList ((Utf8.encode cs).flatMap octalChars) ++ "'"
  else
    let lead := if cs.head? == some '~' || cs.head? == some '#' then "\\" else ""
    lead ++ String.ofList (cs.flatMap fun c => if isShellSign c then ['\\', c] else [c])

end Shell

end Rehearsal

end Provisioning

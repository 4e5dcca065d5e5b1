/-!
# UTF-8 bytes of a text

`Utf8.encode` gives the bytes of a text and `Utf8.size` their number.  `Utf8.decode` goes the
other way and never fails: every maximal run of bytes that begins a character but does not
complete it, and every byte that begins none, becomes one U+FFFD.
-/

namespace Provisioning

namespace Utf8

/-- The UTF-8 bytes of a list of characters. -/
def encode (cs : List Char) : List UInt8 :=
  cs.flatMap String.utf8EncodeChar

/-- The number of UTF-8 bytes of a list of characters. -/
def size (cs : List Char) : Nat :=
  cs.foldr (fun c n => c.utf8Size + n) 0

@[simp] theorem encode_nil : encode [] = [] := rfl

@[simp] theorem encode_append (a b : List Char) : encode (a ++ b) = encode a ++ encode b := by
  simp [encode]

@[simp] theorem size_nil : size [] = 0 := rfl

@[simp] theorem size_cons (c : Char) (cs : List Char) : size (c :: cs) = c.utf8Size + size cs := rfl

@[simp] theorem size_append (a b : List Char) : size (a ++ b) = size a + size b := by
  induction a with
  | nil => simp
  | cons c cs ih => simp [ih, Nat.add_assoc]

/-! ### Decoding -/

/-- What stands for bytes that are no character. -/
def replacement : Char := '\uFFFD'

/-- A byte that continues a character, `10xxxxxx`. -/
def isTail (b : UInt8) : Bool :=
  0x80 ≤ b && b ≤ 0xBF

/-- The six payload bits of a continuing byte. -/
def tailBits (b : UInt8) : Nat :=
  b.toNat % 64

/-- How many bytes may follow the leading byte `b`, and the least and the greatest first of them.
The bounds keep out overlong forms, surrogates and code points beyond U+10FFFF. -/
def lead (b : UInt8) : Option (Nat × UInt8 × UInt8) :=
  if 0xC2 ≤ b && b ≤ 0xDF then some (1, 0x80, 0xBF)
  else if b == 0xE0 then some (2, 0xA0, 0xBF)
  else if b == 0xED then some (2, 0x80, 0x9F)
  else if 0xE1 ≤ b && b ≤ 0xEF then some (2, 0x80, 0xBF)
  else if b == 0xF0 then some (3, 0x90, 0xBF)
  else if 0xF1 ≤ b && b ≤ 0xF3 then some (3, 0x80, 0xBF)
  else if b == 0xF4 then some (3, 0x80, 0x8F)
  else none

/-- Reads `n` continuing bytes onto the code point `acc`.  A missing one gives the replacement
character in place of what was read, and is itself left to be read. -/
def follow : Nat → Nat → List UInt8 → Char × List UInt8
  | 0, acc, bs => (Char.ofNat acc, bs)
  | _ + 1, _, [] => (replacement, [])
  | n + 1, acc, b :: bs =>
    if isTail b then follow n (acc * 64 + tailBits b) bs else (replacement, b :: bs)

/-- The character that begins with byte `b`, and the bytes after it. -/
def next (b : UInt8) (bs : List UInt8) : Char × List UInt8 :=
  if b < 0x80 then (Char.ofNat b.toNat, bs)
  else
    match lead b, bs with
    | some (n + 1, lo, hi), b' :: bs' =>
      if lo ≤ b' && b' ≤ hi then
        follow n (b.toNat % Nat.pow 2 (5 - n) * 64 + tailBits b') bs'
      else (replacement, bs)
    | _, _ => (replacement, bs)

theorem length_follow_le (n acc : Nat) (bs : List UInt8) :
    (follow n acc bs).2.length ≤ bs.length := by
  induction n generalizing acc bs with
  | zero => simp [follow]
  | succ n ih =>
    cases bs with
    | nil => simp [follow]
    | cons b bs =>
      simp only [follow]
      split
      · exact Nat.le_succ_of_le (ih _ _)
      · simp

theorem length_next_le (b : UInt8) (bs : List UInt8) : (next b bs).2.length ≤ bs.length := by
  unfold next
  split
  · simp
  · split
    · split
      · exact Nat.le_succ_of_le (length_follow_le _ _ _)
      · simp
    · simp

/-- The characters of a byte stream, with U+FFFD for what is no UTF-8. -/
def decodeChars : List UInt8 → List Char
  | [] => []
  | b :: bs => (next b bs).1 :: decodeChars (next b bs).2
termination_by bs => bs.length
decreasing_by
  have := length_next_le b bs
  simp only [List.length_cons]
  omega

/-- The text of a byte stream, with U+FFFD for what is no UTF-8. -/
def decode (bs : List UInt8) : String :=
  String.ofList (decodeChars bs)

/-- The text of a byte stream, if it is UTF-8. -/
def decode? (bs : List UInt8) : Option String :=
  let cs := decodeChars bs
  if encode cs = bs then some (String.ofList cs) else none

end Utf8

/-- The UTF-8 bytes of a text. -/
def textBytes (s : String) : List UInt8 :=
  Utf8.encode s.toList

theorem textBytes_append (s t : String) : textBytes (s ++ t) = textBytes s ++ textBytes t := by
  simp [textBytes]

/-- The bytes of texts one after another are those of each. -/
theorem textBytes_join (ts : List String) : textBytes (String.join ts) = ts.flatMap textBytes := by
  induction ts with
  | nil => rfl
  | cons t ts ih => rw [String.join_cons, textBytes_append, ih, List.flatMap_cons]

/-- The number of UTF-8 bytes of a text. -/
def textSize (s : String) : Nat :=
  Utf8.size s.toList

end Provisioning

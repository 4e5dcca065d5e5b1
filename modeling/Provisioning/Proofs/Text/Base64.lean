import Provisioning.Shell.Word
import Provisioning.Text.Base64

/-!
# Base64 there and back

* `Base64.value?_digit` : a character tells its six bits;
* `Base64.all_isChar_encode`, `Base64.all_isBare_encode` : the characters that may occur, none of
  which needs quotes in a shell;
* `Base64.decode_encode` : what is encoded is decoded again, whether two, one or no bytes are left
  after the last three.
-/

namespace Provisioning

namespace Base64

/-- The characters of a text in base64. -/
def isChar (c : Char) : Bool := c.isAlphanum || c == '+' || c == '/' || c == '='

@[simp] theorem value?_digit {n : Nat} (h : n < 64) : value? (digit n) = some n := by
  decide +revert

theorem isChar_digit {n : Nat} (h : n < 64) : isChar (digit n) := by
  decide +revert

theorem digit_ne_pad {n : Nat} (h : n < 64) : digit n ≠ '=' := by
  decide +revert

theorem encode_eq_nil {bs : List UInt8} : encode bs = [] ↔ bs = [] := by
  cases bs using encode.fun_cases <;> simp [encode]

theorem all_isChar_encode (bs : List UInt8) : (encode bs).all isChar := by
  have hpad : isChar '=' := by decide
  induction bs using encode.induct with
  | case1 => rfl
  | case2 a =>
    have ha := a.toNat_lt
    simp (disch := omega) only [encode, List.all_cons, isChar_digit, hpad, List.all_nil,
      Bool.and_self]
  | case3 a b =>
    have ha := a.toNat_lt
    have hb := b.toNat_lt
    simp (disch := omega) only [encode, List.all_cons, isChar_digit, hpad, List.all_nil,
      Bool.and_self]
  | case4 a b c r ih =>
    have ha := a.toNat_lt
    have hb := b.toNat_lt
    have hc := c.toNat_lt
    simp (disch := omega) only [encode, List.all_cons, isChar_digit, ih, Bool.and_self]

/-- Nothing in a text in base64 needs quotes in a shell. -/
theorem all_isBare_encode (bs : List UInt8) : (encode bs).all Shell.isBare := by
  have hbare : ∀ c, isChar c → Shell.isBare c := by
    intro c hc
    simp only [isChar, Bool.or_eq_true] at hc
    rcases hc with ((hc | hc) | hc) | hc <;> simp [Shell.isBare, hc]
  have hall := List.all_eq_true.1 (all_isChar_encode bs)
  exact List.all_eq_true.2 fun c hc => hbare c (hall c hc)

/-! ### Bytes from their bits -/

/-- The first byte, whatever bits of the second are written along with its last two. -/
theorem first_byte (a : UInt8) {n : Nat} (h : n < 16) :
    UInt8.ofNat (a.toNat / 4 * 4 + (a.toNat % 4 * 16 + n) / 16) = a := by
  have hbits : a.toNat / 4 * 4 + (a.toNat % 4 * 16 + n) / 16 = a.toNat := by omega
  rw [hbits, UInt8.ofNat_toNat]

/-- The second byte, its bits on both sides of those of its neighbours. -/
theorem second_byte (m : Nat) (b : UInt8) {n : Nat} (h : n < 4) :
    UInt8.ofNat ((m * 16 + b.toNat / 16) % 16 * 16 + (b.toNat % 16 * 4 + n) / 4) = b := by
  have hb := b.toNat_lt
  have hbits : (m * 16 + b.toNat / 16) % 16 * 16 + (b.toNat % 16 * 4 + n) / 4 = b.toNat := by omega
  rw [hbits, UInt8.ofNat_toNat]

/-- The third byte. -/
theorem third_byte (m : Nat) (c : UInt8) :
    UInt8.ofNat ((m * 4 + c.toNat / 64) % 4 * 64 + c.toNat % 64) = c := by
  have hc := c.toNat_lt
  have hbits : (m * 4 + c.toNat / 64) % 4 * 64 + c.toNat % 64 = c.toNat := by omega
  rw [hbits, UInt8.ofNat_toNat]

/-- What is encoded is decoded again. -/
theorem decode_encode (bs : List UInt8) : decode (encode bs) = some bs := by
  induction bs using encode.induct with
  | case1 => rfl
  | case2 a =>
    have ha := a.toNat_lt
    have hpad : a.toNat % 4 * 16 % 16 = 0 := by omega
    have hbyte := first_byte a (n := 0) (by omega)
    rw [Nat.add_zero] at hbyte
    rw [encode, decode, value?_digit (by omega), value?_digit (by omega)]
    simp only [Option.bind_eq_bind, Option.bind_some, hpad, if_true, hbyte]
  | case3 a b =>
    have ha := a.toNat_lt
    have hb := b.toNat_lt
    have hpad : b.toNat % 16 * 4 % 4 = 0 := by omega
    have hbyte := second_byte (a.toNat % 4) b (n := 0) (by omega)
    rw [Nat.add_zero] at hbyte
    rw [encode, decode, value?_digit (by omega), value?_digit (by omega), value?_digit (by omega)]
    · simp only [Option.bind_eq_bind, Option.bind_some, hpad, if_true, hbyte,
        first_byte a (n := b.toNat / 16) (by omega)]
    · exact digit_ne_pad (by omega)
  | case4 a b c r ih =>
    have ha := a.toNat_lt
    have hb := b.toNat_lt
    have hc := c.toNat_lt
    rw [encode, decode, value?_digit (by omega), value?_digit (by omega), value?_digit (by omega),
      value?_digit (by omega), ih]
    · simp only [Option.bind_eq_bind, Option.bind_some, third_byte,
        first_byte a (n := b.toNat / 16) (by omega),
        second_byte (a.toNat % 4) b (n := c.toNat / 64) (by omega)]
    · intro _ hz
      exact absurd hz (digit_ne_pad (by omega))
    · intro hz
      exact absurd hz (digit_ne_pad (by omega))

end Base64

end Provisioning

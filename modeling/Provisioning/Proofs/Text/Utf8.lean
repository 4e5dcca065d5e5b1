import Provisioning.Text.Utf8

/-!
# Bytes of texts are read back

Decoding never fails and puts U+FFFD for what is no text.  The bytes of a text are read back as
that text, so nothing is lost between what a host writes and what is made of it.

* `Utf8.next_encodeChar` : one character is read back, and the bytes after it are left;
* `Utf8.decode_textBytes` : so is a whole text;
* `Utf8.decodeChars_append_feed`, `Utf8.feed_not_mem_decodeChars` : a line feed stands for itself,
  whatever broken bytes stand before it, and nothing else is read as one.
-/

namespace Provisioning

namespace Utf8

variable {n : Nat} {bs : List UInt8}

/-! ### Bytes -/

theorem toNat_byte (h : n < 256) : (UInt8.ofNat n).toNat = n :=
  UInt8.toNat_ofNat_of_lt' h

/-- A byte that carries six bits continues a character. -/
theorem isTail_byte (n : Nat) : isTail (UInt8.ofNat (n % 64 + 0x80)) := by
  have hn := toNat_byte (n := n % 64 + 0x80) (by omega)
  simp only [isTail, Bool.and_eq_true, decide_eq_true_iff, UInt8.le_iff_toNat_le, hn]
  exact ⟨Nat.le_add_left _ _, by show _ ≤ 191; omega⟩

theorem tailBits_byte (n : Nat) : tailBits (UInt8.ofNat (n % 64 + 0x80)) = n % 64 := by
  rw [tailBits, toNat_byte (by omega)]
  omega

/-- Continuing bytes add their bits. -/
theorem follow_byte (k acc : Nat) :
    follow (k + 1) acc (UInt8.ofNat (n % 64 + 0x80) :: bs) = follow k (acc * 64 + n % 64) bs := by
  rw [follow, if_pos (isTail_byte n), tailBits_byte]

/-- What a leading byte says, in numbers. -/
theorem lead_byte (h : n < 256) : lead (UInt8.ofNat n) =
    if 0xC2 ≤ n ∧ n ≤ 0xDF then some (1, UInt8.ofNat 0x80, UInt8.ofNat 0xBF)
    else if n = 0xE0 then some (2, UInt8.ofNat 0xA0, UInt8.ofNat 0xBF)
    else if n = 0xED then some (2, UInt8.ofNat 0x80, UInt8.ofNat 0x9F)
    else if 0xE1 ≤ n ∧ n ≤ 0xEF then some (2, UInt8.ofNat 0x80, UInt8.ofNat 0xBF)
    else if n = 0xF0 then some (3, UInt8.ofNat 0x90, UInt8.ofNat 0xBF)
    else if 0xF1 ≤ n ∧ n ≤ 0xF3 then some (3, UInt8.ofNat 0x80, UInt8.ofNat 0xBF)
    else if n = 0xF4 then some (3, UInt8.ofNat 0x80, UInt8.ofNat 0x8F)
    else none := by
  simp [lead, UInt8.le_iff_toNat_le, ← UInt8.toNat_inj, Nat.mod_eq_of_lt h]

theorem lead_two (h : 0xC2 ≤ n) (h' : n ≤ 0xDF) :
    lead (UInt8.ofNat n) = some (1, UInt8.ofNat 0x80, UInt8.ofNat 0xBF) := by
  rw [lead_byte (by omega), if_pos ⟨h, h'⟩]

theorem lead_three (h : 0xE0 ≤ n) (h' : n ≤ 0xEF) : lead (UInt8.ofNat n) =
    some (2, UInt8.ofNat (if n = 0xE0 then 0xA0 else 0x80),
      UInt8.ofNat (if n = 0xED then 0x9F else 0xBF)) := by
  rw [lead_byte (by omega), if_neg (by omega)]
  by_cases hlo : n = 0xE0
  · simp [hlo]
  by_cases hhi : n = 0xED
  · simp [hhi]
  rw [if_neg hlo, if_neg hhi, if_pos (by omega), if_neg hlo, if_neg hhi]

theorem lead_four (h : 0xF0 ≤ n) (h' : n ≤ 0xF4) : lead (UInt8.ofNat n) =
    some (3, UInt8.ofNat (if n = 0xF0 then 0x90 else 0x80),
      UInt8.ofNat (if n = 0xF4 then 0x8F else 0xBF)) := by
  rw [lead_byte (by omega), if_neg (by omega), if_neg (by omega), if_neg (by omega),
    if_neg (by omega)]
  by_cases hlo : n = 0xF0
  · simp [hlo]
  by_cases hhi : n = 0xF4
  · simp [hhi]
  rw [if_neg hlo, if_pos (by omega), if_neg hlo, if_neg hhi]

/-- A character of several bytes is read from its leading byte and the bytes after it, if the first
of these lies in the bounds that the leading byte sets. -/
theorem next_byte {k m d lo hi : Nat} (hk : Nat.pow 2 (5 - k) = d) (hn : 0x80 ≤ n) (hn' : n < 256)
    (hlead : lead (UInt8.ofNat n) = some (k + 1, UInt8.ofNat lo, UInt8.ofNat hi)) (hhi : hi < 256)
    (h : lo ≤ m % 64 + 0x80) (h' : m % 64 + 0x80 ≤ hi) :
    next (UInt8.ofNat n) (UInt8.ofNat (m % 64 + 0x80) :: bs) =
      follow k (n % d * 64 + m % 64) bs := by
  subst hk
  have hm := toNat_byte (n := m % 64 + 0x80) (by omega)
  have hlarge : ¬ UInt8.ofNat n < 0x80 := by
    rw [UInt8.lt_iff_toNat_lt, toNat_byte hn']
    exact Nat.not_lt.2 hn
  have hbounds : (decide (UInt8.ofNat lo ≤ UInt8.ofNat (m % 64 + 0x80)) &&
      decide (UInt8.ofNat (m % 64 + 0x80) ≤ UInt8.ofNat hi)) = true := by
    simp only [Bool.and_eq_true, decide_eq_true_iff, UInt8.le_iff_toNat_le, hm, toNat_byte hhi,
      toNat_byte (n := lo) (by omega)]
    exact ⟨h, h'⟩
  simp only [next, if_neg hlarge, hlead, hbounds, if_true, toNat_byte hn', tailBits_byte]

/-! ### Characters and texts -/

/-- One character is read back, and the bytes after it are left. -/
theorem next_encodeChar (c : Char) (rest : List UInt8) :
    ∃ b bs, String.utf8EncodeChar c = b :: bs ∧ next b (bs ++ rest) = (c, rest) := by
  have hv : c.val.toNat < 0xD800 ∨ 0xDFFF < c.val.toNat ∧ c.val.toNat < 0x110000 := c.valid
  have hc : Char.ofNat c.val.toNat = c := Char.ofNat_toNat c
  generalize hval : c.val.toNat = v at hv hc
  have hchar : ∀ n, n = v → ((Char.ofNat n, rest) : Char × List UInt8) = (c, rest) := by
    rintro n rfl
    rw [hc]
  rw [String.utf8EncodeChar, hval]
  split
  · refine ⟨_, _, rfl, ?_⟩
    have hsmall : UInt8.ofNat v < 0x80 := by
      rw [UInt8.lt_iff_toNat_lt, toNat_byte (by omega)]
      exact Nat.lt_succ_of_le ‹v ≤ 0x7f›
    simp only [next, if_pos hsmall, toNat_byte (n := v) (by omega), hc, List.nil_append]
  split
  · have hlead := lead_two (n := v / 64 % 0x20 + 0xc0) (by omega) (by omega)
    refine ⟨_, _, rfl, ?_⟩
    rw [List.cons_append, List.nil_append,
      next_byte (show _ = 32 from rfl) (by omega) (by omega) hlead (by omega) (by omega) (by omega),
      follow]
    exact hchar _ (by omega)
  split
  · -- the bounds keep out what has a shorter form, and surrogates, which no character is
    have hlead := lead_three (n := v / 4096 % 0x10 + 0xe0) (by omega) (by omega)
    refine ⟨_, _, rfl, ?_⟩
    rw [List.cons_append, List.cons_append, List.nil_append,
      next_byte (show _ = 16 from rfl) (by omega) (by omega) hlead (by split <;> omega)
        (by split <;> omega) (by split <;> omega), follow_byte, follow]
    exact hchar _ (by omega)
  · have hlead := lead_four (n := v / 262144 % 0x08 + 0xf0) (by omega) (by omega)
    refine ⟨_, _, rfl, ?_⟩
    rw [List.cons_append, List.cons_append, List.cons_append, List.nil_append,
      next_byte (show _ = 8 from rfl) (by omega) (by omega) hlead (by split <;> omega)
        (by split <;> omega) (by split <;> omega), follow_byte, follow_byte, follow]
    exact hchar _ (by omega)

theorem decodeChars_encode (cs : List Char) : decodeChars (encode cs) = cs := by
  induction cs with
  | nil => rw [encode_nil, decodeChars]
  | cons c cs ih =>
    obtain ⟨b, bs, hbytes, hnext⟩ := next_encodeChar c (encode cs)
    have hencode : encode (c :: cs) = b :: (bs ++ encode cs) := by
      rw [encode, List.flatMap_cons, hbytes, List.cons_append, encode]
    rw [hencode, decodeChars, hnext, ih]

/-- The bytes of a text are read back as that text. -/
theorem decode_textBytes (s : String) : decode (textBytes s) = s := by
  rw [decode, textBytes, decodeChars_encode, String.ofList_toList]

/-! ### Line feeds among broken bytes -/

theorem follow_append_feed (n acc : Nat) (bs rest : List UInt8) :
    follow n acc (bs ++ 10 :: rest) =
      ((follow n acc bs).1, (follow n acc bs).2 ++ 10 :: rest) := by
  induction n generalizing acc bs with
  | zero => rfl
  | succ n ih =>
    cases bs with
    | nil => rfl
    | cons b bs =>
      rw [List.cons_append, follow, follow]
      split
      · exact ih _ bs
      · rfl

/-- The bounds that a leading byte sets for the byte after it keep line feeds out, and with a byte
within them the character is past the line feed. -/
theorem lead_spec {b lo hi : UInt8} {n : Nat} (h : lead b = some (n, lo, hi)) :
    0x80 ≤ lo.toNat ∧ ∃ k, n = k + 1 ∧ ∀ b' : UInt8, lo.toNat ≤ b'.toNat → b'.toNat ≤ hi.toNat →
      10 < (b.toNat % Nat.pow 2 (5 - k) * 64 + tailBits b') * Nat.pow 64 k := by
  rw [← UInt8.ofNat_toNat (x := b), lead_byte b.toNat_lt] at h
  repeat' split at h
  all_goals
    cases h
  all_goals
    refine ⟨by decide, _, rfl, fun b' hlo hhi => ?_⟩
    simp [tailBits] at hlo hhi ⊢
    omega

theorem next_append_feed (b : UInt8) (bs rest : List UInt8) :
    next b (bs ++ 10 :: rest) = ((next b bs).1, (next b bs).2 ++ 10 :: rest) := by
  unfold next
  by_cases hb : b < 0x80
  · rw [if_pos hb, if_pos hb]
  rw [if_neg hb, if_neg hb]
  cases hlead : lead b with
  | none => rfl
  | some p =>
    obtain ⟨n, lo, hi⟩ := p
    obtain ⟨hlo, k, rfl, -⟩ := lead_spec hlead
    cases bs with
    | nil =>
      have hfeed : ¬ lo ≤ 10 := by
        rw [UInt8.le_iff_toNat_le, Nat.not_le]
        exact Nat.lt_of_lt_of_le (by decide) hlo
      simp [hfeed]
    | cons b' bs =>
      simp only [List.cons_append, follow_append_feed]
      split <;> rfl

/-- A line feed stands for itself, whatever stands before it. -/
theorem decodeChars_append_feed (bs rest : List UInt8) :
    decodeChars (bs ++ 10 :: rest) = decodeChars bs ++ '\n' :: decodeChars rest := by
  induction bs using decodeChars.induct with
  | case1 =>
    rw [List.nil_append, decodeChars, decodeChars]
    rfl
  | case2 b bs ih =>
    rw [List.cons_append, decodeChars, decodeChars, next_append_feed, ih, List.cons_append]

theorem ofNat_ne_feed {n : Nat} (h : n ≠ 10) : Char.ofNat n ≠ '\n' := by
  by_cases hvalid : n.isValidChar
  · intro he
    rw [Char.ofNat, dif_pos hvalid] at he
    exact h (congrArg Char.toNat he)
  · rw [Char.ofNat, dif_neg hvalid]
    decide

theorem replacement_ne_feed : replacement ≠ '\n' := by decide

theorem follow_ne_feed {n acc : Nat} (h : 10 < acc * Nat.pow 64 n) (bs : List UInt8) :
    (follow n acc bs).1 ≠ '\n' := by
  induction n generalizing acc bs with
  | zero =>
    have hacc : acc * Nat.pow 64 0 = acc := Nat.mul_one acc
    rw [hacc] at h
    exact ofNat_ne_feed (Nat.ne_of_gt h)
  | succ n ih =>
    cases bs with
    | nil => exact replacement_ne_feed
    | cons b bs =>
      rw [follow]
      split
      · refine ih (Nat.lt_of_lt_of_le h ?_) bs
        have hpow : Nat.pow 64 (n + 1) = 64 * Nat.pow 64 n := Nat.mul_comm _ _
        rw [hpow, ← Nat.mul_assoc]
        exact Nat.mul_le_mul_right _ (Nat.le_add_right _ _)
      · exact replacement_ne_feed

/-- No other byte begins a line feed. -/
theorem next_ne_feed {b : UInt8} (hb : b ≠ 10) (bs : List UInt8) : (next b bs).1 ≠ '\n' := by
  unfold next
  split
  · exact ofNat_ne_feed fun h => hb (UInt8.toNat_inj.1 h)
  · split
    · next n lo hi b' bs' hlead =>
      obtain ⟨-, k, hk, hbits⟩ := lead_spec hlead
      cases hk
      split
      · next hbounds =>
        simp only [Bool.and_eq_true, decide_eq_true_eq, UInt8.le_iff_toNat_le] at hbounds
        exact follow_ne_feed (hbits b' hbounds.1 hbounds.2) bs'
      · exact replacement_ne_feed
    · exact replacement_ne_feed

theorem follow_suffix (n acc : Nat) (bs : List UInt8) : (follow n acc bs).2 <:+ bs := by
  induction n generalizing acc bs with
  | zero => exact List.suffix_rfl
  | succ n ih =>
    cases bs with
    | nil => exact List.suffix_rfl
    | cons b bs =>
      rw [follow]
      split
      · exact (ih _ bs).trans (List.suffix_cons b bs)
      · exact List.suffix_rfl

theorem next_suffix (b : UInt8) (bs : List UInt8) : (next b bs).2 <:+ bs := by
  unfold next
  split
  · exact List.suffix_rfl
  · split
    · split
      · exact (follow_suffix _ _ _).trans (List.suffix_cons _ _)
      · exact List.suffix_rfl
    · exact List.suffix_rfl

/-- Without a line feed among the bytes there is none in what they are read as. -/
theorem feed_not_mem_decodeChars {bs : List UInt8} (h : 10 ∉ bs) : '\n' ∉ decodeChars bs := by
  induction bs using decodeChars.induct with
  | case1 => simp [decodeChars]
  | case2 b bs ih =>
    rw [List.mem_cons, not_or] at h
    rw [decodeChars, List.mem_cons, not_or]
    exact ⟨(next_ne_feed (Ne.symm h.1) bs).symm,
      ih fun hmem => h.2 ((next_suffix b bs).subset hmem)⟩

end Utf8

end Provisioning

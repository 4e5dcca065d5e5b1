import Provisioning.Proofs.Text.Lines
import Provisioning.Text.Decimal

/-!
# Laws of whole numbers as text

A whole number is written with decimal digits and perhaps a sign (`mem_toString`), so there is
nothing to trim (`trim_toString`).  What is written is read back: digits (`readNat_toDigits`), whole
numbers (`readInt_toString`) and words of 64 bits (`int64?_trim_ofInt64`).
-/

namespace Provisioning

namespace Decimal

theorem isDigit_of_mem_toDigits {n : Nat} {c : Char} (h : c ∈ Nat.toDigits 10 n) : c.isDigit :=
  Nat.isDigit_of_mem_toDigits (by decide) (by decide) h

/-- Digits are read back. -/
theorem readNat_toDigits (n : Nat) : readNat (Nat.toDigits 10 n) = some n := by
  have hall : (Nat.toDigits 10 n).all Char.isDigit := by
    rw [List.all_eq_true]
    exact fun c hc => isDigit_of_mem_toDigits hc
  rw [readNat, if_pos hall]
  · have := Nat.ofDigitChars_ten_toDigits (n := n)
    simpa [Nat.ofDigitChars, Nat.mul_comm] using this
  · exact fun h => Nat.toDigits_ne_nil h

/-- A whole number is written with digits and perhaps a sign. -/
theorem mem_toString {n : Int} {c : Char} (h : c ∈ (toString n).toList) :
    c = '-' ∨ c.isDigit := by
  have hminus : "-".toList = ['-'] := rfl
  rw [Int.toString_eq_repr, Int.repr_eq_if] at h
  split at h
  · exact .inr (isDigit_of_mem_toDigits (by simpa using h))
  · rw [String.toList_append, Nat.toList_repr, hminus, List.singleton_append,
      List.mem_cons] at h
    exact h.imp_right isDigit_of_mem_toDigits

theorem exists_toString (n : Int) :
    ∃ c cs, (toString n).toList = c :: cs ∧ (c = '-' ∨ c.isDigit) := by
  cases hcs : (toString n).toList with
  | cons c cs => exact ⟨c, cs, rfl, mem_toString (hcs ▸ List.mem_cons_self)⟩
  | nil =>
    rw [Int.toString_eq_repr, Int.repr_eq_if] at hcs
    split at hcs
    · exact absurd (Nat.toList_repr ▸ hcs) Nat.toDigits_ne_nil
    · simp at hcs

/-- Digits come without a sign. -/
theorem readInt_of_digits {cs : List Char} {n : Nat} (h : ∀ c ∈ cs, c.isDigit)
    (hn : readNat cs = some n) : readInt cs = some (n : Int) := by
  unfold readInt
  split
  · exact absurd (h '-' List.mem_cons_self) (by decide)
  · exact absurd (h '+' List.mem_cons_self) (by decide)
  · rw [hn]
    rfl

/-- Whole numbers are read back. -/
theorem readInt_toString (n : Int) : readInt (toString n).toList = some n := by
  have hminus : "-".toList = ['-'] := rfl
  rw [Int.toString_eq_repr, Int.repr_eq_if]
  split
  · next hn =>
    rw [Nat.toList_repr,
      readInt_of_digits (fun c => isDigit_of_mem_toDigits) (readNat_toDigits n.toNat),
      Int.toNat_of_nonneg hn]
  · next hn =>
    have hvalue : -(((-n).toNat : Nat) : Int) = n := by omega
    rw [String.toList_append, Nat.toList_repr, hminus, List.singleton_append, readInt,
      readNat_toDigits]
    exact congrArg some hvalue

/-- There is nothing to trim about a whole number. -/
theorem trim_toString (n : Int) : Text.trim (toString n) = toString n := by
  have hblank : ∀ c ∈ (toString n).toList, Text.isBlank c = false := by
    intro c hc
    rw [Bool.eq_false_iff]
    intro hc'
    rcases mem_toString hc with rfl | hdigit
    · exact absurd hc' (by decide)
    · have hrange : 48 ≤ c.toNat ∧ c.toNat ≤ 57 := Char.isDigit_iff_toNat.1 hdigit
      simp only [Text.isBlank, Bool.or_eq_true, Bool.and_eq_true, decide_eq_true_eq,
        beq_iff_eq] at hc'
      omega
  rw [Text.trim, Text.trimChars_eq_self, String.ofList_toList]
  · exact fun c hc => hblank c (List.mem_of_head? hc)
  · exact fun c hc => hblank c (List.mem_of_getLast? hc)

/-- A signed word of 64 bits is within its range. -/
theorem toInt64?_toInt (n : Int64) : toInt64? n.toInt = some n := by
  have hleast := n.le_toInt
  have hbound := n.toInt_lt
  have hpow : Int.pow 2 63 = 2 ^ 63 := rfl
  rw [toInt64?, hpow, if_pos (by simp only [Bool.and_eq_true, decide_eq_true_eq]; omega),
    Int64.ofInt_toInt]

/-- Words of 64 bits are read back. -/
theorem int64?_trim_ofInt64 (n : Int64) : int64? (Text.trim (ofInt64 n)) = some n := by
  rw [ofInt64, trim_toString, int64?, readInt_toString, Option.bind_some, toInt64?_toInt]

end Decimal

end Provisioning

import Provisioning.Json.Reader
import Provisioning.Proofs.Text.Decimal

/-!
# Reading back what is written

The compact text of a value is read as that value, if its numbers are whole ones of 64 bits and it
stands no deeper than a reader goes.  The leaves come first: strings, whose escapes are undone one
by one, and numbers, whose digits are those of `Nat.toDigits`.

* `Json.stringBody_escaped`, `Json.stringAfterQuote_chars` : strings;
* `Json.number_int` : whole numbers;
* `Json.items_chars`, `Json.entries_chars` : arrays and objects, given their items;
* `Json.Value.Fits.ofText?_render` : whole values;
* `Json.Value.Fits.visible` : no text of a value holds a line break or another control character.
-/

namespace Provisioning

namespace Json

/-! ### Strings -/

/-- The four digits of a control character spell its number. -/
theorem unit?_hexPair : ∀ n < 0x20, unit? '0' '0' (Nat.digitChar (n / 16))
    (Nat.digitChar (n % 16)) = some n := by decide

/-- Escapes are undone. -/
theorem stringBody_escaped (c : Char) (rest : List Char) :
    stringBody (escaped c ++ rest) = push c (stringBody rest) := by
  by_cases hletter : c ∈ ['"', '\\', '\n', '\r', '\t', '\x08', '\x0c']
  · simp only [List.mem_cons, List.not_mem_nil, or_false] at hletter
    rcases hletter with rfl | rfl | rfl | rfl | rfl | rfl | rfl <;>
      simp [escaped, stringBody, escape?]
  simp only [List.mem_cons, List.not_mem_nil, or_false, not_or] at hletter
  obtain ⟨hq, hb, hn, hr, ht, h8, hc⟩ := hletter
  by_cases hlow : c.toNat < 0x20
  · -- a control character without a letter of its own is given by its number
    have hescaped : escaped c = ['\\', 'u', '0', '0', Nat.digitChar (c.toNat / 16),
        Nat.digitChar (c.toNat % 16)] := by
      simp [escaped, hq, hb, hn, hr, ht, h8, hc, hlow, hexPair]
    have hsmall : c.toNat < 0xD800 := by omega
    simp [hescaped, stringBody, unit?_hexPair c.toNat hlow, hsmall]
  · have hescaped : escaped c = [c] := by
      simp [escaped, hq, hb, hn, hr, ht, h8, hc, hlow]
    rw [hescaped, List.singleton_append, stringBody, if_neg hlow]
    all_goals simp_all

theorem stringBody_flatMap (cs rest : List Char) :
    stringBody (cs.flatMap escaped ++ '"' :: rest) = some (cs, rest) := by
  induction cs with
  | nil => simp [stringBody]
  | cons c cs ih =>
    rw [List.flatMap_cons, List.append_assoc, stringBody_escaped, ih]
    rfl

/-- A string is read back after its first quote. -/
theorem stringAfterQuote_chars (s : String) (rest : List Char) :
    stringAfterQuote (s.toList.flatMap escaped ++ '"' :: rest) = some (s, rest) := by
  rw [stringAfterQuote, stringBody_flatMap]
  simp

/-! ### Numbers -/

/-- Whether a number comes to its end before some characters. -/
def Stops (cs : List Char) : Prop :=
  ∀ c ∈ cs.head?, c.isDigit = false ∧ c ≠ '.' ∧ c ≠ 'e' ∧ c ≠ 'E'

theorem stops_nil : Stops [] := by simp [Stops]

theorem stops_cons {c : Char} {cs : List Char}
    (h : c.isDigit = false ∧ c ≠ '.' ∧ c ≠ 'e' ∧ c ≠ 'E') : Stops (c :: cs) := by
  simpa [Stops] using h

theorem digits_append {ds rest : List Char} (hne : ds ≠ []) (hds : ∀ c ∈ ds, c.isDigit)
    (hr : Stops rest) : digits (ds ++ rest) = some (ds, rest) := by
  have hrest : rest.takeWhile Char.isDigit = [] ∧ rest.dropWhile Char.isDigit = rest := by
    cases rest with
    | nil => simp
    | cons c cs => simp [(hr c rfl).1]
  rw [digits, List.takeWhile_append_of_pos hds, List.dropWhile_append_of_pos hds, hrest.1, hrest.2,
    List.append_nil]
  cases ds with
  | nil => exact absurd rfl hne
  | cons d ds => rfl

/-- No number but 0 begins with the digit 0. -/
theorem head?_toDigits {n : Nat} (h : (Nat.toDigits 10 n).head? = some '0') : n = 0 := by
  induction n using Nat.strongRecOn with
  | ind n ih =>
    rw [Nat.toDigits_eq_if (by decide)] at h
    split at h
    · simpa using h
    · next hn =>
      have hzero : n / 10 = 0 := by
        refine ih (n / 10) (by omega) ?_
        cases hds : Nat.toDigits 10 (n / 10) with
        | nil => exact absurd hds Nat.toDigits_ne_nil
        | cons d ds => simpa [hds] using h
      omega

theorem magnitude_toDigits (negative : Bool) (n : Nat) {rest : List Char} (hr : Stops rest)
    (hn : if negative then n ≠ 0 ∧ n ≤ Nat.pow 2 63 else n < Nat.pow 2 64) :
    magnitude negative (Nat.toDigits 10 n ++ rest) =
      some (.int (if negative then -(n : Int) else n), rest) := by
  have hdigits : digits (Nat.toDigits 10 n ++ rest) = some (Nat.toDigits 10 n, rest) :=
    digits_append Nat.toDigits_ne_nil
      (fun c hc => Decimal.isDigit_of_mem_toDigits hc) hr
  have hzero : (Nat.toDigits 10 n).head? = some '0' → Nat.toDigits 10 n = ['0'] := by
    intro h
    simp [head?_toDigits h]
  have hfraction : fraction rest = some ([], rest) := by
    cases rest with
    | nil => rfl
    | cons c cs => simp [fraction, (hr c rfl).2.1]
  have hexponent : exponent rest = some (none, rest) := by
    cases rest with
    | nil => rfl
    | cons c cs => simp [exponent, (hr c rfl).2.2.1, (hr c rfl).2.2.2]
  have hnumber : numberOf negative (Nat.toDigits 10 n) [] none =
      some (.int (if negative then -(n : Int) else n)) := by
    cases negative <;> simp_all [numberOf, Decimal.readNat_toDigits]
  simpa [magnitude, hdigits, hfraction, hexponent, hnumber] using hzero

/-- A number that begins with a digit has no sign. -/
theorem number_of_digit {d : Char} {cs : List Char} (hd : d.isDigit) :
    number (d :: cs) = magnitude false (d :: cs) := by
  rw [number]
  rintro rest ⟨rfl, rfl⟩
  exact absurd hd (by decide)

/-- A whole number of 64 bits is read back. -/
theorem number_int {n : Int} (h : -Int.pow 2 63 ≤ n) (h' : n < Int.pow 2 64) {rest : List Char}
    (hr : Stops rest) : number ((toString n).toList ++ rest) = some (.int n, rest) := by
  have hpow : Int.pow 2 64 = (Nat.pow 2 64 : Nat) ∧ Int.pow 2 63 = (Nat.pow 2 63 : Nat) :=
    ⟨rfl, rfl⟩
  rw [Int.toString_eq_repr, Int.repr_eq_if]
  split
  · next hn =>
    have hm : n.toNat < Nat.pow 2 64 := by omega
    have hvalue : ((n.toNat : Nat) : Int) = n := Int.toNat_of_nonneg hn
    have hmagnitude := magnitude_toDigits false n.toNat hr hm
    rw [Nat.toList_repr]
    cases hds : Nat.toDigits 10 n.toNat with
    | nil => exact absurd hds Nat.toDigits_ne_nil
    | cons d ds =>
      have hd : d.isDigit := Decimal.isDigit_of_mem_toDigits (hds ▸ List.mem_cons_self)
      rw [hds] at hmagnitude
      rw [List.cons_append, number_of_digit hd, ← List.cons_append, hmagnitude, hvalue]
      rfl
  · next hn =>
    have hm : (-n).toNat ≠ 0 ∧ (-n).toNat ≤ Nat.pow 2 63 := by omega
    have hvalue : -(((-n).toNat : Nat) : Int) = n := by omega
    have hmagnitude := magnitude_toDigits true (-n).toNat hr hm
    have hminus : "-".toList = ['-'] := rfl
    rw [String.toList_append, Nat.toList_repr, hminus, List.singleton_append, List.cons_append,
      number, hmagnitude, if_pos rfl, hvalue]

/-! ### Values -/

/-- Whether a value stands at most so deep and its numbers are whole ones of 64 bits. -/
inductive Value.Fits : Nat → Value → Prop
  | null (d : Nat) : Fits d .null
  | bool (d : Nat) (b : Bool) : Fits d (.bool b)
  | int (d : Nat) {n : Int} (least : -Int.pow 2 63 ≤ n) (bound : n < Int.pow 2 64) : Fits d (.int n)
  | str (d : Nat) (s : String) : Fits d (.str s)
  | arr {d : Nat} {vs : List Value} (items : ∀ v ∈ vs, Fits d v) : Fits (d + 1) (.arr vs)
  | obj {d : Nat} {es : List (String × Value)} (entries : ∀ e ∈ es, Fits d e.2) :
      Fits (d + 1) (.obj es)

/-- Whether characters begin with what a value may begin with. -/
def Begins (cs : List Char) : Prop :=
  ∃ c rest, cs = c :: rest ∧ isSpace c = false ∧ c ≠ ']' ∧ c ≠ '\x7d'

theorem Begins.append {cs : List Char} (h : Begins cs) (rest : List Char) :
    Begins (cs ++ rest) := by
  obtain ⟨c, cs, rfl, hc⟩ := h
  exact ⟨c, cs ++ rest, rfl, hc⟩

theorem Begins.skipSpace_eq {cs : List Char} (h : Begins cs) : skipSpace cs = cs := by
  obtain ⟨c, rest, rfl, hc, -⟩ := h
  simp [skipSpace, hc]

theorem begins_stringChars (s : String) : Begins (stringChars s) :=
  ⟨'"', _, rfl, by decide⟩

theorem begins_of_digit {c : Char} {cs : List Char} (h : c.isDigit) : Begins (c :: cs) := by
  refine ⟨c, cs, rfl, ?_, ?_, ?_⟩
  · cases hs : isSpace c with
    | false => rfl
    | true =>
      simp only [isSpace, Bool.or_eq_true, beq_iff_eq] at hs
      rcases hs with ((rfl | rfl) | rfl) | rfl <;> exact absurd h (by decide)
  all_goals
    rintro rfl
    exact absurd h (by decide)

theorem begins_int (n : Int) : Begins (toString n).toList := by
  obtain ⟨c, cs, hcs, rfl | hc⟩ := Decimal.exists_toString n
  · exact ⟨'-', cs, hcs, by decide⟩
  · exact hcs ▸ begins_of_digit hc

theorem Value.Fits.begins {d : Nat} {v : Value} (h : v.Fits d) : Begins v.chars := by
  cases h with
  | null => exact ⟨'n', _, rfl, by decide⟩
  | bool d b => cases b <;> exact ⟨_, _, rfl, by decide⟩
  | int d least bound => exact begins_int _
  | str d s => exact begins_stringChars s
  | arr => exact ⟨'[', _, rfl, by decide⟩
  | obj => exact ⟨'\x7b', _, rfl, by decide⟩

/-- Whether an item is read where it stands. -/
def Reads (item : List Char → Option (Value × List Char)) (v : Value) : Prop :=
  Begins v.chars ∧ ∀ rest, Stops rest → item (v.chars ++ rest) = some (v, rest)

section

variable {item : List Char → Option (Value × List Char)} {rest : List Char}

/-- Between items stands nothing that belongs to one. -/
theorem skipSpace_cons {c : Char} (h : isSpace c = false) (cs : List Char) :
    skipSpace (c :: cs) = c :: cs := by
  simp [skipSpace, h]

/-- An array is read back if its items are. -/
theorem items_chars {vs : List Value} (hne : vs ≠ []) (hvs : ∀ v ∈ vs, Reads item v) {fuel : Nat}
    (hfuel : vs.length ≤ fuel) :
    items item fuel (itemsChars vs ++ ']' :: rest) = some (vs, rest) := by
  induction vs generalizing fuel with
  | nil => exact absurd rfl hne
  | cons v vs ih =>
    rw [List.forall_mem_cons] at hvs
    obtain ⟨⟨hbegins, hitem⟩, hothers⟩ := hvs
    cases fuel with
    | zero => simp at hfuel
    | succ fuel =>
      cases vs with
      | nil =>
        have hspace := skipSpace_cons (c := ']') (by decide) rest
        rw [itemsChars, items, (hbegins.append _).skipSpace_eq, hitem _ (stops_cons (by decide))]
        simp [hspace]
      | cons w ws =>
        have hmore := ih (by simp) hothers (by simpa using hfuel)
        have hspace := skipSpace_cons (c := ',') (by decide) (itemsChars (w :: ws) ++ ']' :: rest)
        rw [itemsChars, List.append_assoc, List.cons_append, items,
          (hbegins.append _).skipSpace_eq, hitem _ (stops_cons (by decide))]
        simp [hspace, hmore]

/-- An object is read back if its values are. -/
theorem entries_chars {es : List (String × Value)} (hne : es ≠ [])
    (hes : ∀ e ∈ es, Reads item e.2) {fuel : Nat} (hfuel : es.length ≤ fuel) :
    entries item fuel (entriesChars es ++ '\x7d' :: rest) = some (es, rest) := by
  induction es generalizing fuel with
  | nil => exact absurd rfl hne
  | cons e es ih =>
    rw [List.forall_mem_cons] at hes
    obtain ⟨⟨hbegins, hitem⟩, hothers⟩ := hes
    obtain ⟨k, v⟩ := e
    cases fuel with
    | zero => simp at hfuel
    | succ fuel =>
      cases es with
      | nil =>
        have hspace := skipSpace_cons (c := '\x7d') (by decide) rest
        have hcolon := skipSpace_cons (c := ':') (by decide) (v.chars ++ '\x7d' :: rest)
        have hquote := ((begins_stringChars k).append
          (':' :: v.chars ++ '\x7d' :: rest)).skipSpace_eq
        rw [entriesChars, entries, List.append_assoc, hquote]
        simp [stringChars, stringAfterQuote_chars, hcolon, (hbegins.append _).skipSpace_eq,
          hitem _ (stops_cons (c := '\x7d') (by decide)), hspace]
      | cons e' es' =>
        have hmore := ih (by simp) hothers (by simpa using hfuel)
        have hspace := skipSpace_cons (c := ',') (by decide)
          (entriesChars (e' :: es') ++ '\x7d' :: rest)
        have hcolon := skipSpace_cons (c := ':') (by decide)
          (v.chars ++ ',' :: (entriesChars (e' :: es') ++ '\x7d' :: rest))
        have hquote := ((begins_stringChars k).append
          (':' :: (v.chars ++ ',' :: entriesChars (e' :: es')) ++ '\x7d' :: rest)).skipSpace_eq
        rw [entriesChars, entries, List.append_assoc, hquote]
        simp [stringChars, stringAfterQuote_chars, hcolon, (hbegins.append _).skipSpace_eq,
          hitem _ (stops_cons (c := ',') (by decide)), hspace, hmore]

end

/-! ### Whole values -/

/-- What is neither an array nor an object is read as it is at any depth. -/
theorem value_of_scalar {c : Char} {cs : List Char} (d : Nat) (hc : c ≠ '[') (hc' : c ≠ '\x7b') :
    value d (c :: cs) = scalar (c :: cs) := by
  cases d with
  | zero =>
    rw [value]
    all_goals simp_all
  | succ d =>
    rw [value]
    all_goals simp_all

theorem value_of_number {c : Char} {cs : List Char} (d : Nat) (hc : c = '-' ∨ c.isDigit) :
    value d (c :: cs) = number (c :: cs) := by
  have hne : ∀ c', ¬ c'.isDigit → c' ≠ '-' → c ≠ c' := by
    rintro c' hdigit hminus rfl
    exact hc.elim hminus hdigit
  rw [value_of_scalar d (hne _ (by decide) (by decide)) (hne _ (by decide) (by decide)), scalar]
  · exact fun rest h => hne '"' (by decide) (by decide) (List.cons.inj h).1
  · exact fun rest h => hne 'n' (by decide) (by decide) (List.cons.inj h).1
  · exact fun rest h => hne 't' (by decide) (by decide) (List.cons.inj h).1
  · exact fun rest h => hne 'f' (by decide) (by decide) (List.cons.inj h).1

theorem length_le_itemsChars (vs : List Value) : vs.length ≤ (itemsChars vs).length + 1 := by
  induction vs with
  | nil => simp
  | cons v vs ih =>
    cases vs with
    | nil => simp
    | cons w ws =>
      simp only [itemsChars, List.length_append, List.length_cons] at ih ⊢
      omega

theorem length_le_entriesChars (es : List (String × Value)) :
    es.length ≤ (entriesChars es).length + 1 := by
  induction es with
  | nil => simp
  | cons e es ih =>
    cases es with
    | nil => simp
    | cons e' es' =>
      simp only [entriesChars, List.length_append, List.length_cons] at ih ⊢
      omega

/-- An array that is not empty is read item by item. -/
theorem value_arr (d : Nat) {cs : List Char} (h : Begins cs) :
    value (d + 1) ('[' :: cs) =
      (items (value d) (cs.length + 1) cs).map fun (vs, rest) => (.arr vs, rest) := by
  rw [value, h.skipSpace_eq]
  obtain ⟨c, cs, rfl, -, hc, -⟩ := h
  split
  · next heq => exact absurd (List.cons.inj heq).1 hc
  · rfl

/-- An object that is not empty is read entry by entry. -/
theorem value_obj (d : Nat) {cs : List Char} (h : Begins cs) :
    value (d + 1) ('\x7b' :: cs) =
      (entries (value d) (cs.length + 1) cs).map fun (es, rest) => (.obj es, rest) := by
  rw [value, h.skipSpace_eq]
  obtain ⟨c, cs, rfl, -, -, hc⟩ := h
  split
  · next heq => exact absurd (List.cons.inj heq).1 hc
  · rfl

theorem Reads.arr {d : Nat} {vs : List Value} (h : ∀ v ∈ vs, Reads (value d) v) :
    Reads (value (d + 1)) (.arr vs) := by
  refine ⟨⟨'[', _, rfl, by decide⟩, fun rest _ => ?_⟩
  rw [Value.chars, List.cons_append, List.append_assoc, List.singleton_append]
  cases vs with
  | nil =>
    rw [itemsChars, List.nil_append, value, skipSpace_cons (by decide)]
    rfl
  | cons v vs =>
    have hbegins : Begins (itemsChars (v :: vs)) := by
      have hv := (h v List.mem_cons_self).1
      cases vs with
      | nil => exact hv
      | cons w ws => exact hv.append _
    have hlength := length_le_itemsChars (v :: vs)
    rw [value_arr d (hbegins.append _), items_chars (by simp) h]
    · rfl
    · rw [List.length_append]
      omega

theorem Reads.obj {d : Nat} {es : List (String × Value)} (h : ∀ e ∈ es, Reads (value d) e.2) :
    Reads (value (d + 1)) (.obj es) := by
  refine ⟨⟨'\x7b', _, rfl, by decide⟩, fun rest _ => ?_⟩
  rw [Value.chars, List.cons_append, List.append_assoc, List.singleton_append]
  cases es with
  | nil =>
    rw [entriesChars, List.nil_append, value, skipSpace_cons (by decide)]
    rfl
  | cons e es =>
    have hbegins : Begins (entriesChars (e :: es)) := by
      cases es with
      | nil => exact (begins_stringChars e.1).append _
      | cons e' es' => exact (begins_stringChars e.1).append _
    have hlength := length_le_entriesChars (e :: es)
    rw [value_obj d (hbegins.append _), entries_chars (by simp) h]
    · rfl
    · rw [List.length_append]
      omega

/-- A value is read back where it stands. -/
theorem Value.Fits.reads {d : Nat} {v : Value} (h : v.Fits d) : Reads (value d) v := by
  induction h with
  | null d =>
    refine ⟨(Value.Fits.null d).begins, fun rest _ => ?_⟩
    simp [chars, value_of_scalar, scalar, word]
  | bool d b =>
    refine ⟨(Value.Fits.bool d b).begins, fun rest _ => ?_⟩
    cases b <;> simp [chars, value_of_scalar, scalar, word]
  | @int d n least bound =>
    refine ⟨begins_int n, fun rest hr => ?_⟩
    obtain ⟨c, cs, hcs, hc⟩ := Decimal.exists_toString n
    have hnumber := number_int least bound hr
    rw [hcs, List.cons_append] at hnumber
    rw [chars, hcs, List.cons_append, value_of_number d hc, hnumber]
  | str d s =>
    refine ⟨begins_stringChars s, fun rest _ => ?_⟩
    simp [chars, stringChars, value_of_scalar, scalar, stringAfterQuote_chars]
  | arr _ ih => exact .arr ih
  | obj _ ih => exact .obj ih

/-- The compact text of a value is read as that value. -/
theorem Value.Fits.ofText?_render {v : Value} (h : v.Fits depthLimit) :
    Value.ofText? v.render = some v := by
  obtain ⟨hbegins, hreads⟩ := h.reads
  have hvalue := hreads [] stops_nil
  rw [List.append_nil] at hvalue
  rw [ofText?, render, String.toList_ofList, hbegins.skipSpace_eq, hvalue]
  rfl

/-! ### Lines -/

/-- Whether no character is a line break or another control character. -/
def Visible (cs : List Char) : Prop := ∀ c ∈ cs, 0x20 ≤ c.toNat

instance (cs : List Char) : Decidable (Visible cs) :=
  List.decidableBAll _ cs

theorem Visible.append {cs ds : List Char} (hc : Visible cs) (hd : Visible ds) :
    Visible (cs ++ ds) := List.forall_mem_append.2 ⟨hc, hd⟩

theorem Visible.cons {c : Char} {cs : List Char} (hc : 0x20 ≤ c.toNat) (hcs : Visible cs) :
    Visible (c :: cs) := List.forall_mem_cons.2 ⟨hc, hcs⟩

theorem visible_nil : Visible [] := by simp [Visible]

theorem visible_hexPair : ∀ n < 0x20, Visible (hexPair n) := by decide

theorem visible_escaped (c : Char) : Visible (escaped c) := by
  rw [escaped]
  split
  · next h =>
    rw [Bool.or_eq_true, beq_iff_eq, beq_iff_eq] at h
    rcases h with rfl | rfl <;> decide
  iterate 5
    split
    · decide
  split
  · next h => exact Visible.append (by decide) (visible_hexPair _ h)
  · next h => exact .cons (Nat.le_of_not_lt h) visible_nil

theorem visible_stringChars (s : String) : Visible (stringChars s) := by
  refine .cons (by decide) (.append ?_ (.cons (by decide) visible_nil))
  intro c hc
  obtain ⟨d, -, hd⟩ := List.mem_flatMap.1 hc
  exact visible_escaped d c hd

theorem visible_toString (n : Int) : Visible (toString n).toList := by
  intro c hc
  rcases Decimal.mem_toString hc with rfl | hdigit
  · decide
  · have hzero : '0'.toNat = 48 := rfl
    have := Char.isDigit_iff_toNat.1 hdigit
    omega

theorem visible_itemsChars {vs : List Value} (h : ∀ v ∈ vs, Visible v.chars) :
    Visible (itemsChars vs) := by
  induction vs with
  | nil => exact visible_nil
  | cons v vs ih =>
    rw [List.forall_mem_cons] at h
    cases vs with
    | nil => exact h.1
    | cons w ws => exact h.1.append (.cons (by decide) (ih h.2))

theorem visible_entriesChars {es : List (String × Value)} (h : ∀ e ∈ es, Visible e.2.chars) :
    Visible (entriesChars es) := by
  induction es with
  | nil => exact visible_nil
  | cons e es ih =>
    rw [List.forall_mem_cons] at h
    cases es with
    | nil => exact (visible_stringChars e.1).append (.cons (by decide) h.1)
    | cons e' es' =>
      exact (visible_stringChars e.1).append
        (.cons (by decide) (h.1.append (.cons (by decide) (ih h.2))))

/-- A text of a value is a single line. -/
theorem Value.Fits.visible {d : Nat} {v : Value} (h : v.Fits d) : Visible v.chars := by
  induction h with
  | null d => exact (by decide : Visible "null".toList)
  | bool d b =>
    cases b
    · exact (by decide : Visible "false".toList)
    · exact (by decide : Visible "true".toList)
  | int d least bound => exact visible_toString _
  | str d s => exact visible_stringChars s
  | arr _ ih =>
    exact .cons (by decide) ((visible_itemsChars ih).append (.cons (by decide) visible_nil))
  | obj _ ih =>
    exact .cons (by decide) ((visible_entriesChars ih).append (.cons (by decide) visible_nil))

end Json

end Provisioning

import Provisioning.Text.Search
import Provisioning.Text.Utf8

/-!
# Parts of a text by byte offsets

Offsets into a text count bytes.  `Utf8.find?` tells at which offset a pattern first occurs, and
`Utf8.slice?` takes out what lies between two offsets.  There is no such part where an offset lies
inside of a character or beyond the text, or where the second comes before the first
(`Utf8.slice?_eq_some_iff`).
-/

namespace Provisioning

namespace Utf8

/-- The text before an offset, and the text from there on. -/
def splitAt? : Nat → List Char → Option (List Char × List Char)
  | 0, cs => some ([], cs)
  | _ + 1, [] => none
  | n + 1, c :: cs =>
    if c.utf8Size ≤ n + 1 then
      (splitAt? (n + 1 - c.utf8Size) cs).map fun (front, back) => (c :: front, back)
    else none

/-- The part of a text from one offset up to another. -/
def slice? (cs : List Char) (start stop : Nat) : Option (List Char) := do
  let (front, _) ← splitAt? stop cs
  let (_, part) ← splitAt? start front
  return part

/-- The offset at which a pattern first occurs. -/
def find? (pattern cs : List Char) : Option Nat :=
  (Text.cut pattern cs).map fun (before, _) => size before

variable {cs front back part pattern : List Char} {n start stop : Nat}

theorem splitAt?_eq_some_iff :
    splitAt? n cs = some (front, back) ↔ cs = front ++ back ∧ size front = n := by
  fun_induction splitAt? n cs generalizing front back with
  | case1 cs =>
    cases front with
    | nil => simp
    | cons c front =>
      have := c.utf8Size_pos
      simp only [Option.some.injEq, Prod.mk.injEq, size_cons, reduceCtorEq, false_and, false_iff]
      omega
  | case2 n => cases front <;> simp
  | case3 n c cs hfits ih =>
    cases front with
    | nil => simp
    | cons d front =>
      simp only [Option.map_eq_some_iff, Prod.mk.injEq, List.cons.injEq, Prod.exists, ih,
        List.cons_append, size_cons]
      constructor
      · rintro ⟨_, _, ⟨rfl, hsize⟩, ⟨rfl, rfl⟩, rfl⟩
        exact ⟨⟨rfl, rfl⟩, by omega⟩
      · rintro ⟨⟨rfl, rfl⟩, hsize⟩
        exact ⟨_, _, ⟨rfl, by omega⟩, ⟨rfl, rfl⟩, rfl⟩
  | case4 n c cs hfits =>
    cases front with
    | nil => simp
    | cons d front =>
      simp only [reduceCtorEq, List.cons_append, List.cons.injEq, size_cons, false_iff]
      rintro ⟨⟨rfl, rfl⟩, hsize⟩
      omega

/-- A part is what lies between two offsets that are ends of beginnings of the text. -/
theorem slice?_eq_some_iff : slice? cs start stop = some part ↔
    ∃ before after, cs = before ++ part ++ after ∧ size before = start ∧
      start + size part = stop := by
  simp only [slice?, Option.bind_eq_bind, Option.bind_eq_some_iff, Prod.exists,
    splitAt?_eq_some_iff, Option.pure_def, Option.some.injEq]
  constructor
  · rintro ⟨_, after, ⟨rfl, rfl⟩, before, _, ⟨rfl, rfl⟩, rfl⟩
    exact ⟨before, after, rfl, rfl, by simp⟩
  · rintro ⟨before, after, rfl, rfl, rfl⟩
    exact ⟨_, after, ⟨rfl, by simp⟩, before, _, ⟨rfl, rfl⟩, rfl⟩

/-- What does not begin where the text does is shorter. -/
theorem length_lt_of_slice? (h : slice? cs start stop = some part) (hstart : 0 < start) :
    part.length < cs.length := by
  obtain ⟨before, after, rfl, rfl, -⟩ := slice?_eq_some_iff.1 h
  cases before with
  | nil => simp at hstart
  | cons c before =>
    simp only [List.length_append, List.length_cons]
    omega

theorem find?_eq_some_iff : find? pattern cs = some n ↔
    ∃ before after, Text.cut pattern cs = some (before, after) ∧ size before = n := by
  simp [find?]

theorem find?_eq_none_iff : find? pattern cs = none ↔ Text.cut pattern cs = none := by
  simp [find?]

end Utf8

end Provisioning

/-!
# Finding one text in another

`Text.cut` splits a list at the first occurrence of a pattern.  Its laws: nothing is lost
(`eq_of_cut`), and what is left is shorter (`length_lt_of_cut`).
-/

namespace Provisioning

namespace Text

/-- The part before the first occurrence of `sep`, and the part after it. -/
def cut {α : Type} [BEq α] (sep : List α) : List α → Option (List α × List α)
  | [] => if sep.isEmpty then some ([], []) else none
  | c :: cs =>
    if sep.isPrefixOf (c :: cs) then some ([], (c :: cs).drop sep.length)
    else (cut sep cs).map fun (before, after) => (c :: before, after)

/-- Whether `sep` occurs. -/
def contains {α : Type} [BEq α] (sep cs : List α) : Bool :=
  (cut sep cs).isSome

theorem eq_of_cut {α : Type} [BEq α] [LawfulBEq α] {sep cs before after : List α}
    (h : cut sep cs = some (before, after)) : cs = before ++ sep ++ after := by
  induction cs generalizing before after with
  | nil =>
    unfold cut at h
    split at h <;> simp_all
  | cons c cs ih =>
    unfold cut at h
    split at h
    · next hp =>
      simp only [Option.some.injEq, Prod.mk.injEq] at h
      obtain ⟨rfl, rfl⟩ := h
      obtain ⟨t, ht⟩ := List.isPrefixOf_iff_prefix.1 hp
      simp [← ht]
    · simp only [Option.map_eq_some_iff, Prod.mk.injEq, Prod.exists] at h
      obtain ⟨b, a, hb, rfl, rfl⟩ := h
      simp [ih hb]

theorem length_lt_of_cut {α : Type} [BEq α] [LawfulBEq α] {sep cs before after : List α}
    (hsep : sep ≠ []) (h : cut sep cs = some (before, after)) : after.length < cs.length := by
  have := congrArg List.length (eq_of_cut h)
  have := List.length_pos_iff.2 hsep
  simp only [List.length_append] at *
  omega

/-- The parts between the occurrences of the single element `sep`. -/
def splitOn {α : Type} [BEq α] (sep : α) : List α → List (List α)
  | [] => [[]]
  | c :: cs =>
    if c == sep then [] :: splitOn sep cs
    else
      match splitOn sep cs with
      | [] => [[c]]
      | p :: ps => (c :: p) :: ps

/-- The part before the last occurrence of the single element `sep`, and the part after it. -/
def cutLast {α : Type} [BEq α] (sep : α) (cs : List α) : Option (List α × List α) :=
  (cut [sep] cs.reverse).map fun (after, before) => (before.reverse, after.reverse)

/-- The text after `lead`, if it begins so. -/
def dropLead? (lead s : List Char) : Option (List Char) :=
  if lead.isPrefixOf s then some (s.drop lead.length) else none

/-- The text before `tail`, if it ends so. -/
def dropTail? (tail s : List Char) : Option (List Char) :=
  (dropLead? tail.reverse s.reverse).map List.reverse

end Text

end Provisioning

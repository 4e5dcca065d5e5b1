import Provisioning.Text.Search

/-!
# Laws of finding one text in another

`Text.cut` splits at the first occurrence of a pattern (`cut_eq_some_iff`), if there is one
(`cut_eq_none_iff`), so the pattern is not in the part before it (`cut_before`); for a single element the parts are determined by the element
being absent from the first (`cut_singleton`), or from the last where `Text.cutLast` splits
(`cutLast_eq_some_iff`).  `Text.splitOn` splits at every separator (`splitOn_append_cons`).
`Text.dropLead?` and `Text.dropTail?` undo an `append` (`dropLead?_eq_some_iff`,
`dropTail?_eq_some_iff`).
-/

namespace Provisioning

namespace Text

section

variable {α : Type} [BEq α] [LawfulBEq α] {sep cs before after : List α}

theorem cut_leading (h : sep <+: cs) : cut sep cs = some ([], cs.drop sep.length) := by
  cases cs with
  | nil => simp [cut, List.prefix_nil.1 h]
  | cons c cs => rw [cut, if_pos (List.isPrefixOf_iff_prefix.2 h)]

theorem cut_later {c : α} (h : ¬ sep <+: c :: cs) :
    cut sep (c :: cs) = (cut sep cs).map fun (before, after) => (c :: before, after) := by
  rw [cut, if_neg (by rwa [List.isPrefixOf_iff_prefix])]

theorem cut_eq_none_of_length_lt (h : cs.length < sep.length) : cut sep cs = none := by
  rw [Option.eq_none_iff_forall_ne_some]
  rintro ⟨before, after⟩ hcut
  have := congrArg List.length (eq_of_cut hcut)
  simp only [List.length_append] at this
  omega

/-- Nothing is split where the pattern does not occur. -/
theorem cut_eq_none_iff : cut sep cs = none ↔ ¬ sep <:+: cs := by
  induction cs with
  | nil => cases sep <;> simp [cut]
  | cons c cs ih =>
    rw [List.infix_cons_iff, not_or, ← ih]
    by_cases hp : sep <+: c :: cs
    · simp [cut_leading hp, hp]
    · simp [cut_later hp, hp]

/-- The first occurrence is the one before whose last element there is none. -/
theorem cut_eq_some_iff (hsep : sep ≠ []) : cut sep cs = some (before, after) ↔
    cs = before ++ sep ++ after ∧ cut sep (before ++ sep.dropLast) = none := by
  obtain ⟨init, last, rfl⟩ := (List.eq_nil_or_concat sep).resolve_left hsep
  rw [List.concat_eq_append, List.dropLast_concat]
  constructor
  · intro h
    refine ⟨eq_of_cut h, ?_⟩
    induction cs generalizing before with
    | nil => simp [cut] at h
    | cons c cs ih =>
      by_cases hp : init ++ [last] <+: c :: cs
      · rw [cut_leading hp] at h
        obtain ⟨rfl, -⟩ := Prod.mk.inj (Option.some.inj h)
        exact cut_eq_none_of_length_lt (by simp)
      · rw [cut_later hp] at h
        simp only [Option.map_eq_some_iff, Prod.mk.injEq, Prod.exists] at h
        obtain ⟨b, a, hb, rfl, rfl⟩ := h
        have hlonger : c :: (b ++ init) <+: c :: cs := ⟨last :: a, by simp [eq_of_cut hb]⟩
        rw [List.cons_append, cut_later fun h => hp (h.trans hlonger), ih hb,
          Option.map_none]
  · rintro ⟨rfl, h⟩
    induction before with
    | nil =>
      rw [List.nil_append, cut_leading (List.prefix_append _ after), List.drop_left]
    | cons c b ih =>
      have hp : ¬ init ++ [last] <+: c :: (b ++ init) := by
        intro hp
        rw [List.cons_append, cut_leading hp] at h
        simp at h
      have hp' : ¬ init ++ [last] <+: c :: (b ++ (init ++ [last]) ++ after) := by
        intro hp'
        exact hp (List.prefix_of_prefix_length_le hp' ⟨last :: after, by simp⟩ (by simp))
      rw [List.cons_append, cut_later hp, Option.map_eq_none_iff] at h
      rw [List.cons_append, List.cons_append, cut_later hp', ih h, Option.map_some]

/-- More text after the first occurrence is text after it. -/
theorem cut_append (hsep : sep ≠ []) (h : cut sep cs = some (before, after)) (rest : List α) :
    cut sep (cs ++ rest) = some (before, after ++ rest) := by
  rw [cut_eq_some_iff hsep] at h ⊢
  obtain ⟨rfl, h⟩ := h
  exact ⟨by simp, h⟩

theorem cut_left (hsep : sep ≠ []) {rest : List α} (h : cut sep (cs ++ rest) = none) :
    cut sep cs = none := by
  rw [Option.eq_none_iff_forall_ne_some]
  rintro ⟨before, after⟩ hcut
  simp [cut_append hsep hcut] at h

/-- There is no occurrence before the first one. -/
theorem cut_before (hsep : sep ≠ []) (h : cut sep cs = some (before, after)) :
    cut sep before = none :=
  cut_left hsep ((cut_eq_some_iff hsep).1 h).2

end

variable {α : Type} [BEq α] [LawfulBEq α] {sep : α} {cs before after : List α}

theorem cut_singleton (h : sep ∉ before) :
    cut [sep] (before ++ sep :: after) = some (before, after) := by
  induction before with
  | nil => simp [cut]
  | cons c cs ih =>
    have hne : sep ≠ c := by
      intro hc
      exact h (hc ▸ List.mem_cons_self)
    rw [List.cons_append, cut]
    simp [hne, ih fun hc => h (List.mem_cons_of_mem _ hc)]

theorem not_mem_of_cut_singleton (h : cut [sep] cs = some (before, after)) : sep ∉ before := by
  induction cs generalizing before with
  | nil => simp [cut] at h
  | cons c cs ih =>
    rw [cut] at h
    split at h
    · simp only [Option.some.injEq, Prod.mk.injEq] at h
      simp [← h.1]
    · next hp =>
      simp only [Option.map_eq_some_iff, Prod.mk.injEq, Prod.exists] at h
      obtain ⟨b, a, hb, rfl, rfl⟩ := h
      have hne : sep ≠ c := by
        intro hc
        exact hp (by simp [hc])
      intro hm
      exact (List.mem_cons.1 hm).elim hne (ih hb)

/-- The last occurrence is the one that nothing of the kind follows. -/
theorem cutLast_eq_some_iff :
    cutLast sep cs = some (before, after) ↔ cs = before ++ sep :: after ∧ sep ∉ after := by
  simp only [cutLast, Option.map_eq_some_iff, Prod.mk.injEq, Prod.exists]
  constructor
  · rintro ⟨a, b, h, rfl, rfl⟩
    refine ⟨?_, by simpa using not_mem_of_cut_singleton h⟩
    have := congrArg List.reverse (eq_of_cut h)
    simpa using this
  · rintro ⟨rfl, h⟩
    refine ⟨after.reverse, before.reverse, ?_, by simp, by simp⟩
    have hcut : cut [sep] (after.reverse ++ sep :: before.reverse) = _ :=
      cut_singleton (by simpa using h)
    simpa using hcut

/-! ### Parts -/

theorem splitOn_ne_nil {β : Type} [BEq β] (sep : β) (cs : List β) : splitOn sep cs ≠ [] := by
  cases cs with
  | nil => simp [splitOn]
  | cons c cs =>
    rw [splitOn]
    split
    · simp
    · split <;> simp

theorem splitOn_of_not_mem (h : sep ∉ cs) : splitOn sep cs = [cs] := by
  induction cs with
  | nil => rfl
  | cons c cs ih =>
    have hne : c ≠ sep := fun hc => h (hc ▸ List.mem_cons_self)
    rw [splitOn, ih fun hc => h (List.mem_cons_of_mem _ hc), beq_false_of_ne hne]
    rfl

/-- What stands before a separator and what stands after it is split apart. -/
theorem splitOn_append_cons (cs rest : List α) :
    splitOn sep (cs ++ sep :: rest) = splitOn sep cs ++ splitOn sep rest := by
  induction cs with
  | nil => simp [splitOn]
  | cons c cs ih =>
    rw [List.cons_append, splitOn, splitOn, ih]
    by_cases hc : c == sep
    · rw [if_pos hc, if_pos hc, List.cons_append]
    · rw [if_neg hc, if_neg hc]
      cases hp : splitOn sep cs with
      | nil => exact absurd hp (splitOn_ne_nil sep cs)
      | cons p ps => rfl

/-! ### Beginnings and ends -/

variable {lead tail s r : List Char}

theorem dropLead?_eq_some_iff : dropLead? lead s = some r ↔ s = lead ++ r := by
  rw [dropLead?]
  split
  · next h =>
    obtain ⟨t, rfl⟩ := List.isPrefixOf_iff_prefix.1 h
    simp [eq_comm]
  · next h =>
    refine ⟨fun hn => absurd hn (by simp), ?_⟩
    rintro rfl
    exact absurd (List.isPrefixOf_iff_prefix.2 (List.prefix_append _ _)) h

theorem dropTail?_eq_some_iff : dropTail? tail s = some r ↔ s = r ++ tail := by
  rw [dropTail?]
  simp only [Option.map_eq_some_iff, dropLead?_eq_some_iff]
  constructor
  · rintro ⟨t, h, rfl⟩
    simpa using congrArg List.reverse h
  · rintro rfl
    exact ⟨r.reverse, by simp, by simp⟩

end Text

end Provisioning

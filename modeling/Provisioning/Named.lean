/-!
# Named things in declaration order

A `Named α` holds things under names, in the order in which the names first came, no name twice.
`Named.insert` replaces in place or appends; its laws are `get?_insert` and `names_insert`.  What is
found under a name is what is declared under it (`get?_eq_some_iff`).
-/

namespace Provisioning

/-- Things under distinct names, in the order of their first declaration. -/
structure Named (α : Type) where
  /-- The names with what they stand for. -/
  entries : List (String × α)
  /-- No name is declared twice. -/
  nodup : (entries.map Prod.fst).Nodup

namespace Named

variable {α β : Type}

/-- Nothing under any name. -/
def empty : Named α := ⟨[], List.nodup_nil⟩

instance : EmptyCollection (Named α) := ⟨empty⟩

instance : Inhabited (Named α) := ⟨empty⟩

/-- The names, in order. -/
def names (m : Named α) : List String := m.entries.map Prod.fst

/-- The things, in the order of their names. -/
def values (m : Named α) : List α := m.entries.map Prod.snd

/-- The number of names. -/
def size (m : Named α) : Nat := m.entries.length

/-- Whether there is no name. -/
def isEmpty (m : Named α) : Bool := m.entries.isEmpty

/-- What stands under a name. -/
def get? (m : Named α) (name : String) : Option α := m.entries.lookup name

/-- Whether a name is declared. -/
def contains (m : Named α) (name : String) : Bool := (m.get? name).isSome

/-- The entries with `a` under `name`: in place if the name is there, else at the end. -/
def insertEntry (name : String) (a : α) : List (String × α) → List (String × α)
  | [] => [(name, a)]
  | e :: es => if e.1 = name then (name, a) :: es else e :: insertEntry name a es

theorem map_fst_insertEntry (name : String) (a : α) (es : List (String × α)) :
    (insertEntry name a es).map Prod.fst =
      if name ∈ es.map Prod.fst then es.map Prod.fst else es.map Prod.fst ++ [name] := by
  induction es with
  | nil => simp [insertEntry]
  | cons e es ih =>
    unfold insertEntry
    by_cases h : e.1 = name
    · simp [h]
    · have h' : ¬ name = e.1 := fun hn => h hn.symm
      rw [if_neg h]
      simp only [List.map_cons, ih, List.mem_cons, h', false_or]
      split <;> simp

/-- Puts `a` under `name`: in place if the name is there, else at the end. -/
def insert (m : Named α) (name : String) (a : α) : Named α where
  entries := insertEntry name a m.entries
  nodup := by
    rw [map_fst_insertEntry]
    split
    · exact m.nodup
    · next h =>
      refine List.nodup_append.2 ⟨m.nodup, by simp, ?_⟩
      intro x hx y hy
      rintro rfl
      simp only [List.mem_singleton] at hy
      exact h (hy ▸ hx)

theorem names_insert (m : Named α) (name : String) (a : α) :
    (m.insert name a).names = if name ∈ m.names then m.names else m.names ++ [name] :=
  map_fst_insertEntry name a m.entries

theorem lookup_insertEntry (name other : String) (a : α) (es : List (String × α)) :
    (insertEntry name a es).lookup other =
      if other = name then some a else es.lookup other := by
  induction es with
  | nil =>
    by_cases h : other = name
    · simp [insertEntry, h]
    · have hb : (other == name) = false := by simpa using h
      simp [insertEntry, List.lookup_cons, hb, h]
  | cons e es ih =>
    obtain ⟨k, b⟩ := e
    by_cases h : other = name
    · by_cases hk : k = name
      · simp [insertEntry, hk, h]
      · have hb : (name == k) = false := beq_false_of_ne fun hn => hk hn.symm
        subst h
        simp [insertEntry, List.lookup_cons, hk, hb, ih]
    · by_cases hk : k = name
      · have hb : (other == name) = false := by simpa using h
        simp [insertEntry, List.lookup_cons, hk, hb, h]
      · simp_all [insertEntry, List.lookup_cons]

theorem get?_insert (m : Named α) (name other : String) (a : α) :
    (m.insert name a).get? other = if other = name then some a else m.get? other :=
  lookup_insertEntry name other a m.entries

/-- The things of a list, one after another: a repeated name keeps its place and takes the later
thing. -/
def ofList (es : List (String × α)) : Named α :=
  es.foldl (fun m e => m.insert e.1 e.2) empty

theorem insertEntry_of_not_mem {name : String} {es : List (String × α)} (a : α)
    (h : name ∉ es.map Prod.fst) : insertEntry name a es = es ++ [(name, a)] := by
  induction es with
  | nil => rfl
  | cons e es ih =>
    rw [List.map_cons, List.mem_cons, not_or] at h
    rw [insertEntry, if_neg fun he => h.1 he.symm, ih h.2, List.cons_append]

/-- A list without repeated names is taken as it is. -/
theorem entries_ofList {es : List (String × α)} (h : (es.map Prod.fst).Nodup) :
    (ofList es).entries = es := by
  have hfold : ∀ (m : Named α) (es : List (String × α)),
      ((m.entries ++ es).map Prod.fst).Nodup →
      (es.foldl (fun m e => m.insert e.1 e.2) m).entries = m.entries ++ es := by
    intro m es h
    induction es generalizing m with
    | nil => simp
    | cons e es ih =>
      have hnew : e.1 ∉ m.entries.map Prod.fst := by
        rw [List.map_append, List.map_cons] at h
        intro hmem
        exact (List.nodup_append.1 h).2.2 e.1 hmem e.1 List.mem_cons_self rfl
      have hentries : (m.insert e.1 e.2).entries = m.entries ++ [e] :=
        insertEntry_of_not_mem e.2 hnew
      rw [List.foldl_cons, ih _ (by simpa [hentries] using h), hentries]
      simp
  exact hfold empty es h

theorem get?_eq_some_iff {m : Named α} {name : String} {a : α} :
    m.get? name = some a ↔ (name, a) ∈ m.entries := by
  have hlookup : ∀ es : List (String × α), (es.map Prod.fst).Nodup →
      (es.lookup name = some a ↔ (name, a) ∈ es) := by
    intro es hes
    induction es with
    | nil => simp
    | cons e es ih =>
      obtain ⟨k, b⟩ := e
      rw [List.map_cons, List.nodup_cons] at hes
      by_cases hk : name = k
      · subst hk
        have hnot : (name, a) ∉ es := fun hmem => hes.1 (List.mem_map.2 ⟨_, hmem, rfl⟩)
        simp [hnot, eq_comm]
      · have hb : (name == k) = false := beq_false_of_ne hk
        simp [List.lookup_cons, hb, hk, ih hes.2]
  exact hlookup m.entries m.nodup

/-- The same names with other things. -/
def map (f : String → α → β) (m : Named α) : Named β where
  entries := m.entries.map fun e => (e.1, f e.1 e.2)
  nodup := by simpa [List.map_map, Function.comp_def] using m.nodup

theorem get?_map (f : String → α → β) (m : Named α) (name : String) :
    (m.map f).get? name = (m.get? name).map (f name) := by
  have hlookup : ∀ es : List (String × α),
      (es.map fun e => (e.1, f e.1 e.2)).lookup name = (es.lookup name).map (f name) := by
    intro es
    induction es with
    | nil => rfl
    | cons e es ih =>
      rw [List.map_cons, List.lookup_cons, List.lookup_cons]
      by_cases h : name = e.1
      · simp [h]
      · have hb : (name == e.1) = false := beq_false_of_ne h
        simp only [hb, ih]
  exact hlookup m.entries

end Named

end Provisioning

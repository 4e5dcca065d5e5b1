import Mathlib.Data.Set.Finite.Basic
import Mathlib.Order.Preorder.Finite
import Mathlib.Tactic.Choose
import Provisioning.Config.RecipeOrder
import Provisioning.Proofs.Text.Sorted

/-!
# The order of recipes

Recipes are ordered by counting down, in a table, the references to recipes that are not ordered
yet.  This file shows that the order is one along references and that nothing else shows in it.

* `RecipeOrder.count_dependents` : a recipe is counted down as often as it names the one ordered;
* `RecipeOrder.State.Inv` : what holds before every turn: the table counts the references that are
  due, and the recipes without any stand in the order or in the queue;
* `RecipeOrder.State.Inv.mem_freed` : which recipes one turn frees;
* `RecipeOrder.State.Inv.next?` : a turn keeps the invariant;
* `RecipeOrder.State.Inv.mem_order_iff` : at the end all recipes are ordered but those that lead to
  a cycle of references;
* `RecipeOrder.orderBy_sorts` : the order is topological, or the recipes left over are named;
* `RecipeOrder.State.Inv.next?_congr` : two runs over recipes with the same references stay in step;
* `RecipeOrder.recipeOrder_congr` : so nothing but the references matters.

What is left over at the end leads to a cycle because each of the recipes left over uses one of
them, and they are finitely many.
-/

namespace Provisioning

variable {recipes : Named Recipe}

theorem Named.mem_entries_of_get? {α : Type} {m : Named α} {name : String} {a : α}
    (h : m.get? name = some a) : (name, a) ∈ m.entries :=
  get?_eq_some_iff.1 h

theorem Named.mem_names_of_get? {α : Type} {m : Named α} {name : String} {a : α}
    (h : m.get? name = some a) : name ∈ m.names :=
  List.mem_map.2 ⟨(name, a), mem_entries_of_get? h, rfl⟩

theorem Named.contains_iff_mem_names {α : Type} {m : Named α} {name : String} :
    m.contains name ↔ name ∈ m.names := by
  constructor
  · intro h
    obtain ⟨a, ha⟩ := Option.isSome_iff_exists.1 h
    exact mem_names_of_get? ha
  · intro h
    rw [contains, get?, List.lookup_isSome_iff]
    obtain ⟨e, he, rfl⟩ := List.mem_map.1 h
    exact ⟨e, he, beq_self_eq_true e.1⟩

theorem Named.get?_eq_none_iff {α : Type} {m : Named α} {name : String} :
    m.get? name = none ↔ name ∉ m.names := by
  rw [← contains_iff_mem_names, contains, Bool.not_eq_true, Option.isSome_eq_false_iff,
    Option.isNone_iff_eq_none]

/-- The order of the entries does not show in what is found. -/
theorem Named.get?_congr {α : Type} {m m' : Named α} (h : m.entries.Perm m'.entries)
    (name : String) : m.get? name = m'.get? name :=
  Option.ext fun _ => by rw [get?_eq_some_iff, get?_eq_some_iff, h.mem_iff]

namespace RecipeOrder

/-! ### What recipes use -/

/-- A recipe uses a declared recipe that one of its steps names. -/
def Uses (recipes : Named Recipe) (name used : String) : Prop :=
  used ∈ recipes.names ∧ ∃ r, recipes.get? name = some r ∧ ∃ s ∈ r.steps, s.recipe? = some used

theorem mem_references {name used : String} :
    used ∈ references recipes name ↔ Uses recipes name used := by
  rw [references]
  cases h : recipes.get? name with
  | none => simp [Uses, h]
  | some r => simp [Uses, h, Named.contains_iff_mem_names, and_comm]

theorem Uses.mem_names {name used : String} (h : Uses recipes name used) : name ∈ recipes.names :=
  have ⟨_, _, hget, _⟩ := h
  Named.mem_names_of_get? hget

theorem references_eq_nil {name : String} (h : name ∉ recipes.names) :
    references recipes name = [] :=
  List.eq_nil_iff_forall_not_mem.2 fun _ hused => h (mem_references.1 hused).mem_names

theorem count_flatMap_const (f : String → List String) {names : List String} (h : names.Nodup)
    (name : String) : (names.flatMap fun n => (f n).map fun _ => n).count name =
      if name ∈ names then (f name).length else 0 := by
  induction names with
  | nil => rfl
  | cons n names ih =>
    rw [List.nodup_cons] at h
    rw [List.flatMap_cons, List.count_append, ih h.2, List.map_const', List.count_replicate]
    by_cases hn : n = name
    · subst hn
      simp [h.1]
    · simp [hn, Ne.symm hn]

/-- A recipe stands among the dependents of another as often as it names it. -/
theorem count_dependents (used name : String) :
    (dependents recipes used).count name = (references recipes name).count used := by
  have hnodup : recipes.names.Nodup := recipes.nodup
  rw [dependents, count_flatMap_const _ hnodup, ← List.countP_eq_length_filter]
  split
  · exact List.countP_congr fun _ _ => by simp
  · next h => rw [references_eq_nil h, List.count_nil]

/-! ### Counting down -/

theorem get?_lower (s : Named Int × List String) (name other : String) :
    (lower s name).1.get? other =
      (s.1.get? other).map (· - if other = name then 1 else 0) := by
  unfold lower
  split
  · next h =>
    by_cases hother : other = name
    · simp [hother, h]
    · simp [hother]
  · next d h =>
    rw [Named.get?_insert]
    by_cases hother : other = name
    · simp [hother, h]
    · simp [hother]

theorem get?_foldl_lower (names : List String) (s : Named Int × List String) (name : String) :
    (names.foldl lower s).1.get? name = (s.1.get? name).map (· - (names.count name : Int)) := by
  induction names generalizing s with
  | nil => simp
  | cons n names ih =>
    rw [List.foldl_cons, ih, get?_lower, Option.map_map, List.count_cons]
    congr 1
    funext d
    by_cases hn : name = n
    · simp [hn]
      omega
    · simp [hn, Ne.symm hn]

theorem mem_lower {s : Named Int × List String} {name other : String} :
    other ∈ (lower s name).2 ↔ other ∈ s.2 ∨ other = name ∧ s.1.get? other = some 1 := by
  unfold lower
  split
  · next h =>
    simp only [iff_self_or]
    rintro ⟨rfl, h1⟩
    simp [h] at h1
  · next d h =>
    split
    · next hd =>
      obtain rfl : d = 1 := by omega
      rw [List.mem_append, List.mem_singleton]
      refine or_congr_right ⟨fun hother => ⟨hother, hother ▸ h⟩, And.left⟩
    · next hd =>
      simp only [iff_self_or]
      rintro ⟨rfl, h1⟩
      rw [h, Option.some_inj] at h1
      omega

/-- A recipe is freed if it is counted down from above zero to zero or below. -/
theorem mem_foldl_lower {names : List String} {s : Named Int × List String} {name : String} :
    name ∈ (names.foldl lower s).2 ↔
      name ∈ s.2 ∨ ∃ d, s.1.get? name = some d ∧ 0 < d ∧ d ≤ names.count name := by
  induction names generalizing s with
  | nil =>
    simp only [List.foldl_nil, List.count_nil, iff_self_or]
    omega
  | cons n names ih =>
    rw [List.foldl_cons, ih, mem_lower, or_assoc, get?_lower, List.count_cons]
    refine or_congr_right ?_
    cases h : s.1.get? name with
    | none => simp
    | some d =>
      by_cases hn : name = n
      · simp [hn]
        omega
      · simp [hn, Ne.symm hn]

theorem nodup_foldl_lower {names : List String} {s : Named Int × List String} (hnodup : s.2.Nodup)
    (hzero : ∀ name ∈ s.2, ∀ d, s.1.get? name = some d → d ≤ 0) :
    (names.foldl lower s).2.Nodup := by
  induction names generalizing s with
  | nil => exact hnodup
  | cons n names ih =>
    rw [List.foldl_cons]
    refine ih ?_ fun name hname d hd => ?_
    · unfold lower
      split
      · exact hnodup
      · next d h =>
        split
        · refine List.nodup_append.2 ⟨hnodup, List.nodup_singleton n, ?_⟩
          rintro a ha b hb rfl
          have := hzero a ha d (List.mem_singleton.1 hb ▸ h)
          omega
        · exact hnodup
    · rw [get?_lower, Option.map_eq_some_iff] at hd
      obtain ⟨d, hd, rfl⟩ := hd
      rcases mem_lower.1 hname with hname | ⟨rfl, h1⟩
      · have := hzero name hname d hd
        split <;> omega
      · rw [h1, Option.some_inj] at hd
        simp [← hd]

/-! ### What holds before every turn -/

/-- In a list of names each comes after all recipes that its own one names. -/
def Closed (recipes : Named Recipe) (names : List String) : Prop :=
  ∀ before name, before ++ [name] <+: names → references recipes name ⊆ before

theorem Closed.concat {done : List String} {current : String} (h : Closed recipes done)
    (hcurrent : references recipes current ⊆ done) : Closed recipes (done ++ [current]) := by
  intro before name hbefore
  rcases List.prefix_concat_iff.1 hbefore with he | hbefore
  · obtain ⟨rfl, hname⟩ := List.append_inj' he rfl
    rw [List.singleton_inj.1 hname]
    exact hcurrent
  · exact h before name hbefore

/-- How many references of a recipe are to recipes that are not ordered yet. -/
def due (recipes : Named Recipe) (order : List String) (name : String) : Nat :=
  (references recipes name).countP (· ∉ order)

theorem due_eq_zero_iff {order : List String} {name : String} :
    due recipes order name = 0 ↔ references recipes name ⊆ order := by
  simp [due, List.subset_def]

/-- Ordering one more recipe leaves as many references less as there are to it. -/
theorem due_concat (recipes : Named Recipe) {order : List String} {current : String}
    (h : current ∉ order) (name : String) : due recipes order name =
      due recipes (order ++ [current]) name + (references recipes name).count current := by
  rw [due, due]
  induction references recipes name with
  | nil => rfl
  | cons used refs ih =>
    rw [List.countP_cons, List.countP_cons, List.count_cons, ih]
    by_cases hu : used = current
    · subst hu
      simp [h]
      omega
    · simp [hu]
      omega

/-- What holds before every turn. -/
structure State.Inv (recipes : Named Recipe) (s : State) : Prop where
  /-- The table holds for every recipe how many of its references are due. -/
  degrees : ∀ name, s.degrees.get? name =
    if name ∈ recipes.names then some (due recipes s.order name : Int) else none
  /-- Ordered or in the queue are the recipes that have no reference due. -/
  mem : ∀ name, name ∈ s.order ++ s.queue ↔
    name ∈ recipes.names ∧ references recipes name ⊆ s.order
  /-- None of them comes twice. -/
  nodup : (s.order ++ s.queue).Nodup
  /-- Each ordered recipe comes after those that it names. -/
  closed : Closed recipes s.order

@[simp] theorem mem_sorted {names : List String} {name : String} :
    name ∈ sorted names ↔ name ∈ names :=
  (List.mergeSort_perm names _).mem_iff

theorem nodup_sorted {names : List String} : (sorted names).Nodup ↔ names.Nodup :=
  (List.mergeSort_perm names _).nodup_iff

theorem sorted_congr {names names' : List String} (hnodup : names.Nodup) (hnodup' : names'.Nodup)
    (h : ∀ name, name ∈ names ↔ name ∈ names') : sorted names = sorted names' :=
  Text.mergeSort_congr ((List.perm_ext_iff_of_nodup hnodup hnodup').2 h)

theorem get?_tableOf (name : String) :
    (tableOf recipes).get? name =
      if name ∈ recipes.names then some ((references recipes name).length : Int) else none := by
  rw [tableOf, Named.get?_map]
  split
  · next h =>
    obtain ⟨r, hr⟩ := Option.isSome_iff_exists.1 (Named.contains_iff_mem_names.2 h)
    rw [hr, Option.map_some]
  · next h => rw [Named.get?_eq_none_iff.2 h, Option.map_none]

theorem mem_idle {table : Named Int} (htable : table.entries.Perm (tableOf recipes).entries)
    {name : String} : name ∈ idle table ↔ name ∈ recipes.names ∧ references recipes name = [] := by
  have hentry : name ∈ idle table ↔ table.get? name = some 0 := by
    simp [idle, Named.get?_eq_some_iff]
  rw [hentry, Named.get?_congr htable, get?_tableOf]
  split <;> simp_all

theorem nodup_idle (table : Named Int) : (idle table).Nodup :=
  (List.filter_sublist.map _).nodup table.nodup

theorem State.inv_start {table : Named Int}
    (htable : table.entries.Perm (tableOf recipes).entries) : (State.start table).Inv recipes where
  degrees name := by
    show table.get? name = _
    rw [Named.get?_congr htable, get?_tableOf]
    simp [start, due]
  mem name := by
    show name ∈ [] ++ sorted (idle table) ↔ name ∈ recipes.names ∧ references recipes name ⊆ []
    rw [List.nil_append, mem_sorted, mem_idle htable, List.subset_nil]
  nodup := nodup_sorted.2 (nodup_idle table)
  closed before name hprefix := by simp [start] at hprefix

theorem State.next?_eq_some_iff {s t : State} :
    s.next? recipes = some t ↔ ∃ current queue, s.queue = current :: queue ∧
      t = ⟨((dependents recipes current).foldl lower (s.degrees, [])).1,
        queue ++ sorted ((dependents recipes current).foldl lower (s.degrees, [])).2,
        s.order ++ [current]⟩ := by
  unfold next?
  cases s.queue with
  | nil => simp
  | cons current queue => simp [eq_comm]

theorem State.next?_eq_none_iff {s : State} : s.next? recipes = none ↔ s.queue = [] := by
  unfold next?
  cases s.queue with
  | nil => simp
  | cons current queue => simp

namespace State.Inv

variable {s t : State} {current : String} {queue : List String}

theorem not_mem_order (h : s.Inv recipes) (hqueue : s.queue = current :: queue) :
    current ∉ s.order := by
  have := h.nodup
  rw [hqueue, List.nodup_append] at this
  exact fun hmem => this.2.2 _ hmem _ List.mem_cons_self rfl

/-- While the references to one recipe are counted down, the table stays at what is due. -/
theorem get?_lowered (h : s.Inv recipes) (names : List String) (name : String) :
    (names.foldl lower (s.degrees, [])).1.get? name =
      if name ∈ recipes.names then some ((due recipes s.order name : Int) - names.count name)
      else none := by
  rw [get?_foldl_lower, h.degrees]
  split <;> rfl

/-- A turn frees the recipes that name the one just ordered and nothing else that is due. -/
theorem mem_freed (h : s.Inv recipes) (hqueue : s.queue = current :: queue) {name : String} :
    name ∈ ((dependents recipes current).foldl lower (s.degrees, [])).2 ↔
      Uses recipes name current ∧ references recipes name ⊆ s.order ++ [current] := by
  have hdue := due_concat recipes (h.not_mem_order hqueue) name
  have hnamed : current ∈ references recipes name ↔ 0 < (references recipes name).count current :=
    List.count_pos_iff.symm
  rw [mem_foldl_lower, count_dependents, ← mem_references, hnamed, ← due_eq_zero_iff, h.degrees]
  by_cases hname : name ∈ recipes.names
  · simp only [if_pos hname, List.not_mem_nil, false_or, Option.some.injEq, exists_eq_left']
    omega
  · simp [hname, references_eq_nil]

theorem nodup_freed (s : State) (names : List String) :
    (names.foldl lower (s.degrees, [])).2.Nodup :=
  nodup_foldl_lower List.nodup_nil (by simp)

theorem next? (h : s.Inv recipes) (ht : s.next? recipes = some t) : t.Inv recipes := by
  obtain ⟨current, queue, hqueue, rfl⟩ := State.next?_eq_some_iff.1 ht
  have hcurrent := h.not_mem_order hqueue
  -- the ordered recipe moves from the queue to the order, so only what is freed is new
  have hturn : ∀ freed, s.order ++ [current] ++ (queue ++ freed) = s.order ++ s.queue ++ freed :=
    fun _ => by simp [hqueue]
  constructor
  case degrees =>
    intro name
    rw [h.get?_lowered, count_dependents, due_concat recipes hcurrent]
    simp
  case mem =>
    intro name
    rw [hturn, List.mem_append, h.mem, mem_sorted, h.mem_freed hqueue]
    constructor
    · rintro (⟨hname, hrefs⟩ | ⟨huses, hrefs⟩)
      · exact ⟨hname, List.Subset.trans hrefs (List.subset_append_left _ _)⟩
      · exact ⟨huses.mem_names, hrefs⟩
    · rintro ⟨hname, hrefs⟩
      by_cases huses : Uses recipes name current
      · exact .inr ⟨huses, hrefs⟩
      · refine .inl ⟨hname, fun used hused => ?_⟩
        rcases List.mem_append.1 (hrefs hused) with horder | hlast
        · exact horder
        · exact absurd (mem_references.1 (List.mem_singleton.1 hlast ▸ hused)) huses
  case nodup =>
    rw [hturn, List.nodup_append]
    refine ⟨h.nodup, nodup_sorted.2 (nodup_freed s _), ?_⟩
    rintro name hbefore _ hfreed rfl
    -- a freed recipe names the ordered one, so it was not there before
    rw [mem_sorted, h.mem_freed hqueue] at hfreed
    exact hcurrent (((h.mem name).1 hbefore).2 (mem_references.2 hfreed.1))
  case closed =>
    refine h.closed.concat ((h.mem current).1 ?_).2
    simp [hqueue]

/-- Whatever is ordered uses only what is ordered before it. -/
theorem idxOf_lt (h : s.Inv recipes) {name used : String} (hname : name ∈ s.order)
    (huses : Uses recipes name used) :
    used ∈ s.order ∧ s.order.idxOf used < s.order.idxOf name := by
  have hlt : s.order.idxOf name < s.order.length := List.idxOf_lt_length_of_mem hname
  have hbefore : s.order.take (s.order.idxOf name) ++ [name] <+: s.order := by
    have htake := List.take_prefix (s.order.idxOf name + 1) s.order
    have hget : s.order[s.order.idxOf name] = name := List.getElem_idxOf hlt
    rwa [← List.take_append_getElem hlt, hget] at htake
  have hmem := h.closed _ _ hbefore (mem_references.2 huses)
  have hused := List.mem_of_mem_take hmem
  exact ⟨hused, (List.mem_take_iff_idxOf_lt hused).1 hmem⟩

theorem mem_names (h : s.Inv recipes) {name : String} (hname : name ∈ s.order) :
    name ∈ recipes.names :=
  ((h.mem name).1 (List.mem_append_left _ hname)).1

theorem length_order_le (h : s.Inv recipes) : s.order.length ≤ recipes.size := by
  have hsub : s.order.Subperm recipes.names :=
    List.subperm_of_subset (List.nodup_append.1 h.nodup).1 fun _ => h.mem_names
  simpa [Named.names, Named.size] using hsub.length_le

theorem nonneg (h : s.Inv recipes) {name : String} {d : Int} (hd : s.degrees.get? name = some d) :
    0 ≤ d := by
  rw [h.degrees] at hd
  split at hd
  · exact Option.some.inj hd ▸ Int.natCast_nonneg _
  · simp at hd

/-- No count falls below zero while the references to one recipe are counted down. -/
theorem nonneg_lowered (h : s.Inv recipes) (hqueue : s.queue = current :: queue)
    {names : List String} (hnames : names <+: dependents recipes current) {name : String} {d : Int}
    (hd : (names.foldl lower (s.degrees, [])).1.get? name = some d) : 0 ≤ d := by
  have hcount := hnames.sublist.count_le name
  rw [count_dependents] at hcount
  have hdue := due_concat recipes (h.not_mem_order hqueue) name
  rw [h.get?_lowered] at hd
  split at hd
  · obtain rfl := Option.some.inj hd
    omega
  · simp at hd

end State.Inv

/-! ### Runs -/

/-- Turns lead from one state to another. -/
def Reaches (recipes : Named Recipe) : State → State → Prop :=
  Relation.ReflTransGen fun s t => s.next? recipes = some t

theorem State.last_of_eq_none {s : State} (h : s.next? recipes = none) : s.last recipes = s := by
  rw [last]
  split
  · rfl
  · simp_all

theorem State.last_of_eq_some {s t : State} (h : s.next? recipes = some t) :
    s.last recipes = t.last recipes := by
  rw [last]
  split
  · simp_all
  · next t' ht' => rw [Option.some.inj (h.symm.trans ht')]

theorem reaches_last (s : State) : Reaches recipes s (s.last recipes) := by
  fun_induction State.last recipes s with
  | case1 => exact .refl
  | case2 s t hnext ih => exact .head hnext ih

theorem queue_last (s : State) : (s.last recipes).queue = [] := by
  fun_induction State.last recipes s with
  | case1 s hnext => exact State.next?_eq_none_iff.1 hnext
  | case2 s t hnext ih => exact ih

theorem State.Inv.of_reaches {s t : State} (h : s.Inv recipes) (hreach : Reaches recipes s t) :
    t.Inv recipes := by
  induction hreach with
  | refl => exact h
  | tail _ hnext ih => exact ih.next? hnext

/-- No state has infinitely many turns before it. -/
theorem wellFounded_next? (recipes : Named Recipe) :
    WellFounded fun t s : State => s.next? recipes = some t :=
  Subrelation.wf (fun hnext => Nat.le_of_eq (State.left_next? hnext))
    (InvImage.wf State.left Nat.lt_wfRel.wf)

/-! ### Cycles -/

/-- A recipe leads to a cycle of references. -/
def Cyclic (recipes : Named Recipe) (name : String) : Prop :=
  ∃ again, Relation.ReflTransGen (Uses recipes) name again ∧
    Relation.TransGen (Uses recipes) again again

/-- Where each of finitely many recipes uses another one of them, each leads to a cycle. -/
theorem cyclic_of_forall_exists (names : List String)
    (h : ∀ name ∈ names, ∃ used ∈ names, Uses recipes name used) {name : String}
    (hname : name ∈ names) : Cyclic recipes name := by
  choose! next hmem huses using h
  -- going on from each recipe to one that it uses never leaves the list
  have hwalk : ∀ n, next^[n] name ∈ names := by
    intro n
    induction n with
    | zero => exact hname
    | succ n ih =>
      rw [Function.iterate_succ_apply']
      exact hmem _ ih
  have hstep : ∀ n, Uses recipes (next^[n] name) (next^[n + 1] name) := fun n => by
    rw [Function.iterate_succ_apply']
    exact huses _ (hwalk n)
  have hreach : ∀ i d, Relation.ReflTransGen (Uses recipes) (next^[i] name)
      (next^[i + d] name) := by
    intro i d
    induction d with
    | zero => exact .refl
    | succ d ih => exact ih.tail (hstep _)
  obtain ⟨i, j, hlt, hagain⟩ :=
    Set.Finite.exists_lt_map_eq_of_forall_mem (t := {n | n ∈ names}) hwalk names.finite_toSet
  obtain ⟨d, rfl⟩ := Nat.exists_eq_add_of_lt hlt
  refine ⟨next^[i] name, ?_, ?_⟩
  · simpa using hreach 0 i
  · have hcycle := Relation.TransGen.tail' (hreach i d) (hstep _)
    rwa [← hagain] at hcycle

namespace State.Inv

variable {s : State}

theorem idxOf_lt_of_transGen (h : s.Inv recipes) {name used : String} (hname : name ∈ s.order)
    (huses : Relation.TransGen (Uses recipes) name used) :
    used ∈ s.order ∧ s.order.idxOf used < s.order.idxOf name := by
  induction huses with
  | single huses => exact h.idxOf_lt hname huses
  | tail _ huses ih =>
    have hlt := h.idxOf_lt ih.1 huses
    exact ⟨hlt.1, hlt.2.trans ih.2⟩

theorem not_cyclic (h : s.Inv recipes) {name : String} (hname : name ∈ s.order) :
    ¬ Cyclic recipes name := by
  rintro ⟨again, hreach, hcycle⟩
  have hagain : again ∈ s.order := by
    rcases Relation.reflTransGen_iff_eq_or_transGen.1 hreach with rfl | hreach
    · exact hname
    · exact (h.idxOf_lt_of_transGen hname hreach).1
  exact Nat.lt_irrefl _ (h.idxOf_lt_of_transGen hagain hcycle).2

/-- When the queue is empty, all recipes are ordered but those that lead to a cycle. -/
theorem mem_order_iff (h : s.Inv recipes) (hqueue : s.queue = []) {name : String} :
    name ∈ s.order ↔ name ∈ recipes.names ∧ ¬ Cyclic recipes name := by
  refine ⟨fun hname => ⟨h.mem_names hname, h.not_cyclic hname⟩, fun ⟨hname, hnot⟩ => ?_⟩
  by_contra hleft
  -- what is left over uses something that is left over
  have hmem := h.mem
  simp only [hqueue, List.append_nil] at hmem
  refine hnot (cyclic_of_forall_exists (recipes.names.filter (· ∉ s.order)) ?_ ?_)
  · intro other hother
    simp only [List.mem_filter, decide_eq_true_eq] at hother
    have hrefs : ¬ references recipes other ⊆ s.order := fun hsub =>
      hother.2 ((hmem other).2 ⟨hother.1, hsub⟩)
    rw [List.subset_def] at hrefs
    push Not at hrefs
    obtain ⟨used, hused, hdue⟩ := hrefs
    rw [mem_references] at hused
    exact ⟨used, by simp [hused.1, hdue], hused⟩
  · simp [hname, hleft]

end State.Inv

/-! ### What is ordered -/

variable {table : Named Int}

theorem inv_last (htable : table.entries.Perm (tableOf recipes).entries) :
    ((State.start table).last recipes).Inv recipes :=
  (State.inv_start htable).of_reaches (reaches_last _)

theorem mem_order_last (htable : table.entries.Perm (tableOf recipes).entries) {name : String} :
    name ∈ ((State.start table).last recipes).order ↔
      name ∈ recipes.names ∧ ¬ Cyclic recipes name :=
  (inv_last htable).mem_order_iff (queue_last _)

theorem Cyclic.mem_names {name : String} (h : Cyclic recipes name) : name ∈ recipes.names := by
  obtain ⟨again, hreach, hcycle⟩ := h
  obtain ⟨used, huses, -⟩ := Relation.TransGen.head'_iff.1 (hcycle.trans_right hreach)
  exact huses.mem_names

theorem forall_not_cyclic_iff : (∀ name, ¬ Cyclic recipes name) ↔
    ∀ name ∈ recipes.names, ¬ Relation.TransGen (Uses recipes) name name := by
  constructor
  · intro h name _ hcycle
    exact h name ⟨name, .refl, hcycle⟩
  · rintro h name ⟨again, hreach, hcycle⟩
    exact h again (Cyclic.mem_names ⟨again, .refl, hcycle⟩) hcycle

/-- There is an order if no recipe leads to a cycle. -/
theorem length_order_last (htable : table.entries.Perm (tableOf recipes).entries) :
    ((State.start table).last recipes).order.length = recipes.size ↔
      ∀ name, ¬ Cyclic recipes name := by
  have hinv := inv_last htable
  have hnodup := (List.nodup_append.1 hinv.nodup).1
  have hsub : ((State.start table).last recipes).order.Subperm recipes.names :=
    List.subperm_of_subset hnodup fun _ => hinv.mem_names
  have hsize : recipes.names.length = recipes.size := by simp [Named.names, Named.size]
  constructor
  · intro hlength name hcyclic
    have hperm := hsub.perm_of_length_le (by omega)
    exact ((mem_order_last htable).1 (hperm.mem_iff.2 hcyclic.mem_names)).2 hcyclic
  · intro h
    rw [← hsize]
    refine Nat.le_antisymm hsub.length_le (List.Subperm.length_le ?_)
    exact List.subperm_of_subset recipes.nodup fun name hname =>
      (mem_order_last htable).2 ⟨hname, h name⟩

theorem orderBy_eq_ok_iff (htable : table.entries.Perm (tableOf recipes).entries)
    {order : List String} : orderBy recipes table = .ok order ↔
      (∀ name, ¬ Cyclic recipes name) ∧ order = ((State.start table).last recipes).order := by
  rw [← length_order_last htable, orderBy]
  split <;> simp_all [eq_comm]

/-- An order holds every recipe once. -/
theorem perm_of_orderBy (htable : table.entries.Perm (tableOf recipes).entries)
    {order : List String} (horder : orderBy recipes table = .ok order) :
    order.Perm recipes.names := by
  obtain ⟨hacyclic, rfl⟩ := (orderBy_eq_ok_iff htable).1 horder
  have hnodup := (List.nodup_append.1 (inv_last htable).nodup).1
  refine (List.perm_ext_iff_of_nodup hnodup recipes.nodup).2 fun name => ?_
  rw [mem_order_last htable]
  exact and_iff_left (hacyclic name)

theorem closed_of_orderBy (htable : table.entries.Perm (tableOf recipes).entries)
    {order : List String} (horder : orderBy recipes table = .ok order) :
    Closed recipes order := by
  obtain ⟨-, rfl⟩ := (orderBy_eq_ok_iff htable).1 horder
  exact (inv_last htable).closed

/-- In an order references lead to earlier places. -/
theorem idxOf_lt_of_orderBy (htable : table.entries.Perm (tableOf recipes).entries)
    {order : List String} (horder : orderBy recipes table = .ok order) {name used : String}
    (huses : Uses recipes name used) : order.idxOf used < order.idxOf name := by
  obtain ⟨hacyclic, rfl⟩ := (orderBy_eq_ok_iff htable).1 horder
  have hname := (mem_order_last htable).2 ⟨huses.mem_names, hacyclic name⟩
  exact ((inv_last htable).idxOf_lt hname huses).2

theorem orderBy_eq_error_iff (htable : table.entries.Perm (tableOf recipes).entries)
    {left : List String} : orderBy recipes table = .error left ↔
      (∃ name, Cyclic recipes name) ∧ left = sorted (recipes.names.filter fun n =>
        !((State.start table).last recipes).order.contains n) := by
  rw [← not_forall_not, ← length_order_last htable, orderBy]
  split <;> simp_all [eq_comm]

/-- Left over are the recipes that lead to a cycle. -/
theorem mem_left_of_orderBy (htable : table.entries.Perm (tableOf recipes).entries)
    {left : List String} (hleft : orderBy recipes table = .error left) {name : String} :
    name ∈ left ↔ Cyclic recipes name := by
  obtain ⟨-, rfl⟩ := (orderBy_eq_error_iff htable).1 hleft
  rw [mem_sorted, List.mem_filter, Bool.not_eq_true', ← Bool.not_eq_true, List.contains_iff_mem,
    mem_order_last htable]
  constructor
  · rintro ⟨hname, hnot⟩
    exact not_not.1 fun hcyclic => hnot ⟨hname, hcyclic⟩
  · intro hcyclic
    exact ⟨hcyclic.mem_names, fun h => h.2 hcyclic⟩

theorem pairwise_left_of_orderBy (htable : table.entries.Perm (tableOf recipes).entries)
    {left : List String} (hleft : orderBy recipes table = .error left) :
    left.Pairwise (· < ·) := by
  obtain ⟨-, rfl⟩ := (orderBy_eq_error_iff htable).1 hleft
  exact Text.pairwise_lt_mergeSort (List.filter_sublist.nodup recipes.nodup)

/-- Recipes are ordered if and only if none of them reaches itself through references to declared
recipes, and then each stands in the order once and after all declared recipes that its steps name;
else the recipes that lead to a cycle are left over, and are named in rising order.  The turns end,
with an empty queue.  Before any of them the recipes ordered so far and those in the queue are all
that ever joined the queue, none of them twice, and no count of references ever falls below zero,
also while the references to one recipe are counted down.  All this holds in whatever order the
entries of the table come; `recipeOrder` takes them in the order of declaration. -/
theorem orderBy_sorts (htable : table.entries.Perm (tableOf recipes).entries) :
    ((∃ order, orderBy recipes table = .ok order) ↔
      ∀ name ∈ recipes.names, ¬ Relation.TransGen (Uses recipes) name name) ∧
    (∀ order, orderBy recipes table = .ok order → order.Perm recipes.names ∧
      ∀ before name after, order = before ++ name :: after →
        ∀ used, Uses recipes name used → used ∈ before) ∧
    (∀ left, orderBy recipes table = .error left →
      left.Pairwise (· < ·) ∧ ∀ name, name ∈ left ↔ Cyclic recipes name) ∧
    (WellFounded fun t s : State => s.next? recipes = some t) ∧
    (∃ s, Reaches recipes (State.start table) s ∧ s.queue = []) ∧
    ∀ s, Reaches recipes (State.start table) s →
      (s.order ++ s.queue).Nodup ∧ s.order.length ≤ recipes.size ∧
      (∀ name d, s.degrees.get? name = some d → 0 ≤ d) ∧
      ∀ current queue, s.queue = current :: queue →
        ∀ names, names <+: dependents recipes current → ∀ name d,
          (names.foldl lower (s.degrees, [])).1.get? name = some d → 0 ≤ d := by
  refine ⟨?_, fun order horder => ⟨perm_of_orderBy htable horder, ?_⟩, fun left hleft =>
    ⟨pairwise_left_of_orderBy htable hleft, fun _ => mem_left_of_orderBy htable hleft⟩,
    wellFounded_next? recipes, ⟨_, reaches_last _, queue_last _⟩, ?_⟩
  · rw [← forall_not_cyclic_iff]
    simp only [orderBy_eq_ok_iff htable, exists_and_left, exists_eq, and_true]
  · rintro before name after rfl used huses
    refine closed_of_orderBy htable horder before name ?_ (mem_references.2 huses)
    exact ⟨after, by simp⟩
  · intro s hreach
    have hs := (State.inv_start htable).of_reaches hreach
    exact ⟨hs.nodup, hs.length_order_le, fun _ _ => hs.nonneg,
      fun _ _ hqueue _ hnames _ _ => hs.nonneg_lowered hqueue hnames⟩

/-- A recipe that is named twice, two that name each other, one that leads there from a step that
is task and package at once, one that names itself, and one that is not declared. -/
def tangled : Named Recipe := .ofList [
  ("web", { steps := [{ recipe? := some "base" }, { recipe? := some "ghost" },
                      { recipe? := some "base" }] }),
  ("a", { steps := [{ recipe? := some "b" }] }),
  ("c", { steps := [{ task? := some "t", recipe? := some "a" }] }),
  ("b", { steps := [{ recipe? := some "a" }, { recipe? := some "base" }] }),
  ("self", { steps := [{ recipe? := some "self" }] }),
  ("base", {})]

/-- The table of `tangled`, in another order. -/
def tangledTable : Named Int :=
  .ofList [("base", 0), ("b", 2), ("self", 1), ("c", 1), ("web", 2), ("a", 1)]

theorem tangled_sorts : tangledTable.entries.Perm (tableOf tangled).entries ∧
    orderBy tangled tangledTable = .error ["a", "b", "c", "self"] ∧
    Cyclic tangled "c" ∧ ¬ Cyclic tangled "web" := by
  have htable : tangledTable.entries.Perm (tableOf tangled).entries := by decide +kernel
  have horder : ((State.start tangledTable).last tangled).order = ["base", "web"] := by
    decide +kernel
  have hleft : orderBy tangled tangledTable = .error ["a", "b", "c", "self"] := by
    rw [orderBy, horder, if_neg (by decide)]
    exact congrArg _ (Text.mergeSort_eq (by decide +kernel) (by decide))
  have hcyclic := ((orderBy_sorts htable).2.2.1 _ hleft).2
  exact ⟨htable, hleft, (hcyclic "c").1 (by decide), mt (hcyclic "web").2 (by decide)⟩

/-! ### The order in which recipes are declared -/

section

variable {recipes' : Named Recipe} {table' : Named Int}

theorem references_subset_congr
    (huses : ∀ name used, Uses recipes name used ↔ Uses recipes' name used)
    {order : List String} {name : String} :
    references recipes name ⊆ order ↔ references recipes' name ⊆ order := by
  simp only [List.subset_def, mem_references, huses]

/-- Where two states with the same references agree, so they do after the next turn. -/
theorem State.Inv.next?_congr
    (huses : ∀ name used, Uses recipes name used ↔ Uses recipes' name used) {s s' t : State}
    (h : s.Inv recipes) (h' : s'.Inv recipes') (hqueue : s.queue = s'.queue)
    (horder : s.order = s'.order) (ht : s.next? recipes = some t) :
    ∃ t', s'.next? recipes' = some t' ∧ t.queue = t'.queue ∧ t.order = t'.order := by
  obtain ⟨current, queue, hcurrent, rfl⟩ := next?_eq_some_iff.1 ht
  have hcurrent' : s'.queue = current :: queue := hqueue ▸ hcurrent
  refine ⟨_, next?_eq_some_iff.2 ⟨current, queue, hcurrent', rfl⟩, ?_, by rw [horder]⟩
  -- the same recipes are freed, and sorting hides in which order
  rw [sorted_congr (nodup_freed s _) (nodup_freed s' _) fun name => ?_]
  rw [h.mem_freed hcurrent, h'.mem_freed hcurrent', huses, references_subset_congr huses, horder]

theorem State.Inv.order_last_congr
    (huses : ∀ name used, Uses recipes name used ↔ Uses recipes' name used) {s s' : State}
    (h : s.Inv recipes) (h' : s'.Inv recipes') (hqueue : s.queue = s'.queue)
    (horder : s.order = s'.order) : (s.last recipes).order = (s'.last recipes').order := by
  fun_induction State.last recipes s generalizing s' with
  | case1 s hnone =>
    rw [next?_eq_none_iff, hqueue] at hnone
    rw [last_of_eq_none (next?_eq_none_iff.2 hnone), horder]
  | case2 s t hnext ih =>
    obtain ⟨t', hnext', hqueue', horder'⟩ := h.next?_congr huses h' hqueue horder hnext
    rw [last_of_eq_some hnext']
    exact ih (h.next? hnext) (h'.next? hnext') hqueue' horder'

/-- Runs over recipes with the same names and the same references end alike. -/
theorem orderBy_congr (hnames : ∀ name, name ∈ recipes.names ↔ name ∈ recipes'.names)
    (huses : ∀ name used, Uses recipes name used ↔ Uses recipes' name used)
    (htable : table.entries.Perm (tableOf recipes).entries)
    (htable' : table'.entries.Perm (tableOf recipes').entries) :
    orderBy recipes table = orderBy recipes' table' := by
  have hstart := State.inv_start htable
  have hstart' := State.inv_start htable'
  have hqueue : sorted (idle table) = sorted (idle table') := by
    refine sorted_congr (nodup_idle table) (nodup_idle table') fun name => ?_
    rw [mem_idle htable, mem_idle htable', hnames, ← List.subset_nil, ← List.subset_nil,
      references_subset_congr huses]
  have horder := hstart.order_last_congr huses hstart' hqueue rfl
  have hleft : ∀ order : List String, sorted (recipes.names.filter fun n => !order.contains n) =
      sorted (recipes'.names.filter fun n => !order.contains n) := fun order =>
    sorted_congr (recipes.nodup.filter _) (recipes'.nodup.filter _) (by simp [hnames])
  have hsize : recipes.size = recipes'.size := by
    have hperm := (List.perm_ext_iff_of_nodup recipes.nodup recipes'.nodup).2 hnames
    simpa [Named.size] using hperm.length_eq
  rw [orderBy, orderBy, horder, hsize, hleft]

/-- The order, or what is left over, depends on nothing but the names of the recipes and which
declared recipes each of them uses: not on where recipes and steps are declared, how often a recipe
is named, or in which order the entries of the table come. -/
theorem recipeOrder_congr (hnames : ∀ name, name ∈ recipes.names ↔ name ∈ recipes'.names)
    (huses : ∀ name used, Uses recipes name used ↔ Uses recipes' name used) :
    recipeOrder recipes = recipeOrder recipes' ∧
    ∀ table : Named Int, table.entries.Perm (tableOf recipes').entries →
      orderBy recipes' table = recipeOrder recipes := by
  refine ⟨orderBy_congr hnames huses (.refl _) (.refl _), fun table htable => ?_⟩
  exact (orderBy_congr hnames huses (.refl _) htable).symm

end

/-- The recipes of `tangled`, declared in another order and with other repetitions. -/
def retold : Named Recipe := .ofList [
  ("self", { steps := [{ recipe? := some "self" }, { recipe? := some "self" }] }),
  ("b", { steps := [{ recipe? := some "base" }, { recipe? := some "a" }] }),
  ("base", {}),
  ("a", { steps := [{ recipe? := some "b" }] }),
  ("web", { steps := [{ recipe? := some "ghost" }, { recipe? := some "base" }] }),
  ("c", { steps := [{ recipe? := some "a" }] })]

/-- The table of `retold`, in another order. -/
def retoldTable : Named Int :=
  .ofList [("a", 1), ("base", 0), ("b", 2), ("c", 1), ("self", 2), ("web", 1)]

theorem retold_congr : (∀ name, name ∈ tangled.names ↔ name ∈ retold.names) ∧
    (∀ name used, Uses tangled name used ↔ Uses retold name used) ∧
    recipeOrder tangled = recipeOrder retold ∧
    retoldTable.entries.Perm (tableOf retold).entries ∧
    orderBy retold retoldTable = recipeOrder tangled := by
  have hperm : tangled.names.Perm retold.names := by decide +kernel
  have hrefs : ∀ name ∈ tangled.names, ∀ used ∈ tangled.names,
      (used ∈ references tangled name ↔ used ∈ references retold name) := by decide +kernel
  have huses : ∀ name used, Uses tangled name used ↔ Uses retold name used := by
    intro name used
    by_cases h : name ∈ tangled.names ∧ used ∈ tangled.names
    · rw [← mem_references, ← mem_references, hrefs name h.1 used h.2]
    · refine iff_of_false (fun hu => h ⟨hu.mem_names, hu.1⟩) fun hu => h ?_
      exact ⟨hperm.mem_iff.2 hu.mem_names, hperm.mem_iff.2 hu.1⟩
  have htable : retoldTable.entries.Perm (tableOf retold).entries := by decide +kernel
  obtain ⟨horder, hany⟩ := recipeOrder_congr (fun _ => hperm.mem_iff) huses
  exact ⟨fun _ => hperm.mem_iff, huses, horder, htable, hany _ htable⟩

end RecipeOrder

end Provisioning
